import FrontEnd.Parser.Action
import FrontEnd.Script

/-!
# Scripted grammars

The operations on a parser as data, with the answers they give, and the grammar that
follows a script of them and keeps a log of all answers.
-/

namespace FrontEnd

namespace Parser

/-- An operation on a parser. -/
inductive Operation where
  | peek
  | peekNext
  | peekPrevious
  | advance
  | check (kind : TokenKind)
  | accept (kinds : List TokenKind)
  | expect (kind : TokenKind) (message : Text)
  | atEnd
  | hasDiagnostics
  | errorLocation
  | report (location : Location) (message : Text)
  | synchronize
  | diagnostics
  | tokenCount
  | recovery
  deriving DecidableEq, Repr

/-- The answer of an operation. -/
inductive Answer where
  | nothing
  | token (t : Token)
  | truth (b : Bool)
  | count (n : Nat)
  | location (l : Location)
  | diagnostics (ds : List Diagnostic)
  | recovery (r : Recovery)
  deriving DecidableEq, Repr

/-- Carries out an operation. -/
def Operation.perform : Operation → ParseAction Answer
  | .peek => return .token (← Action.read (·.peek))
  | .peekNext => return .token (← Action.read (·.peekNext))
  | .peekPrevious => return .token (← Action.read (·.peekPrevious))
  | .advance => return .token (← ParseAction.advance)
  | .check kind => return .truth (← Action.read (·.check kind))
  | .accept kinds => return .truth (← ParseAction.accept kinds)
  | .expect kind message => return .truth (← ParseAction.expect kind message)
  | .atEnd => return .truth (← Action.read (·.atEnd))
  | .hasDiagnostics => return .truth (← Action.read fun p => !p.diagnostics.isEmpty)
  | .errorLocation => return .location (← Action.read (·.errorLocation))
  | .report location message => do
    ParseAction.report location message
    return .nothing
  | .synchronize => do
    ParseAction.synchronize
    return .nothing
  | .diagnostics => return .diagnostics (← Action.read (·.diagnostics.toList))
  | .tokenCount => return .count (← Action.read (·.tokenCount))
  | .recovery => return .recovery (← Action.read (·.recovery))

/-- An answer, and the position of the cursor when it was given. -/
structure LogEntry where
  answer : Answer
  position : Nat
  deriving DecidableEq, Repr

/-- Carries out an operation and notes the position behind it. -/
def Operation.log (op : Operation) : ParseAction LogEntry := do
  let answer ← op.perform
  Action.read fun p => ⟨answer, p.position⟩

/-- A command to a parser, or whether to go on. -/
abbrev Command := Script.Command Operation Verdict

/-- What a scripted grammar remembers during a parse. -/
abbrev ScriptMemory := Script.Memory LogEntry

/-- The grammar that follows a script: `opening` at the start, then the lists of `calls` in
turn, and `closing` at the end. -/
def scripted (opening : List Command) (calls : List (List Command)) (closing : List Command) :
    Grammar ScriptMemory where
  begin := Script.runAside Operation.log .proceed opening
  parse := Script.call Operation.log .proceed .proceed calls
  finish := Script.runAside Operation.log .proceed closing

end Parser

end FrontEnd
