import FrontEnd.Scanner.Action
import FrontEnd.Script
import FrontEnd.Text.Identifier

/-!
# Scripted recognizers

The operations on a scanner as data, with the answers they give, and the recognizer that
follows a script of them and keeps a log of all answers.
-/

namespace FrontEnd

namespace Scanner

/-- A class of characters to accept. -/
inductive CharClass where
  | digit
  | identStart
  | identPart
  | any
  | none
  | members (chars : List Char)
  deriving DecidableEq, Repr

/-- Whether a character belongs to a class. -/
def CharClass.contains : CharClass → Char → Bool
  | .digit, c => Text.isDigit c
  | .identStart, c => Text.isIdentStart c
  | .identPart, c => Text.isIdentPart c
  | .any, _ => true
  | .none, _ => false
  | .members chars, c => chars.contains c

/-- An operation on a scanner. -/
inductive Operation where
  | peek
  | peekNext
  | advance
  | accept (code : Int)
  | acceptWhile (chars : CharClass)
  | startsWith (marker : Text)
  | atEnd
  | atComment
  | advanceTo (offset : Int)
  | advanceBy (distance : Int)
  | text
  | lexeme
  | tokenLocation
  | startToken
  | addToken (kind : TokenKind) (literal : Option Literal)
  | report (message : Text)
  | reportAt (location : Location) (message : Text)
  | lineComments (marker : Text)
  | blockComments (start stop : Text)
  | recordComments (recorded : Bool)
  | tokens
  | diagnostics
  | hasDiagnostics
  deriving DecidableEq, Repr

/-- The answer of an operation. -/
inductive Answer where
  | nothing
  | char (c : Option Char)
  | truth (b : Bool)
  | count (n : Nat)
  | text (t : Text)
  | location (l : Location)
  | tokens (ts : List Token)
  | diagnostics (ds : List Diagnostic)
  deriving DecidableEq, Repr

/-- The action without an answer of its own. -/
def silently (x : ScanAction Unit) : ScanAction Answer := do
  x
  return .nothing

/-- Carries out an operation.  Distances are added as signed words of 64 bits. -/
def Operation.perform : Operation → ScanAction Answer
  | .peek => return .char (← ScanAction.peek?)
  | .peekNext => return .char (← ScanAction.peekNext?)
  | .advance => return .char (← ScanAction.advance)
  | .accept code => return .truth (← ScanAction.acceptIf fun c => (c.toNat : Int) == code)
  | .acceptWhile chars => return .count (← ScanAction.acceptWhile chars.contains)
  | .startsWith marker => return .truth (← ScanAction.startsWith marker)
  | .atEnd => return .truth (← ScanAction.atEnd)
  | .atComment => return .truth (← ScanAction.atComment)
  | .advanceTo offset => silently (ScanAction.advanceTo offset)
  | .advanceBy distance => do
    let offset ← Action.read (·.cursor.offset)
    silently (ScanAction.advanceTo ((offset + distance).bmod (Nat.pow 2 64)))
  | .text => return .text (← ScanAction.text)
  | .lexeme => return .text (← ScanAction.lexeme)
  | .tokenLocation => return .location (← Action.read (·.mark.location))
  | .startToken => silently ScanAction.startToken
  | .addToken kind literal => silently (ScanAction.addToken kind literal)
  | .report message => silently (ScanAction.report message)
  | .reportAt location message => silently (ScanAction.reportAt location message)
  | .lineComments marker => silently (ScanAction.lineComments marker)
  | .blockComments start stop => silently (ScanAction.blockComments start stop)
  | .recordComments recorded => silently (ScanAction.recordComments recorded)
  | .tokens => return .tokens (← Action.read (·.tokens))
  | .diagnostics => return .diagnostics (← Action.read (·.diagnostics.toList))
  | .hasDiagnostics => return .truth (← Action.read fun s => !s.diagnostics.isEmpty)

/-- An answer, and where the cursor was when it was given. -/
structure LogEntry where
  answer : Answer
  offset : Nat
  location : Location
  deriving DecidableEq, Repr

/-- Carries out an operation and notes where the cursor is behind it. -/
def Operation.log (op : Operation) : ScanAction LogEntry := do
  let answer ← op.perform
  Action.read fun s => ⟨answer, s.cursor.offset, s.cursor.location⟩

/-- A command to a scanner, or whether a token was found. -/
abbrev Command := Script.Command Operation Bool

/-- What a scripted recognizer remembers during a scan. -/
abbrev ScriptMemory := Script.Memory LogEntry

/-- The recognizer that follows a script: `opening` when a scan starts, then the lists of
`calls` in turn.  Without any list it never finds anything. -/
def scripted (opening : List Command) (calls : List (List Command)) :
    Recognizer ScriptMemory where
  begin := Script.runAside Operation.log true opening
  recognize := Script.call Operation.log true false calls

end Scanner

end FrontEnd
