import FrontEnd.Expr.Tree
import FrontEnd.Lox.Parser
import FrontEnd.Repl.Display
import FrontEnd.Text.Words

/-!
# Sessions

A session evaluates one line after the other.  A line is a Lox program, which is scanned,
parsed and printed, or a command, which starts with a colon.
-/

namespace FrontEnd

namespace Repl

/-- A session. -/
structure Session where
  scanner : Scanner
  parser : Lox.Parser
  /-- Whether the tokens of a line are printed. -/
  showTokens : Bool
  /-- Whether expressions are drawn as trees. -/
  showTree : Bool
  deriving DecidableEq, Repr

/-- What a line comes to. -/
structure Reply where
  /-- Whether the session is to end. -/
  quit : Bool
  /-- What was wrong with the line. -/
  failure : Option Text
  output : Text
  deriving DecidableEq, Repr

/-- A command. -/
inductive Command where
  | nothing
  | quit
  | tokens (shown : Bool)
  | tree (shown : Bool)
  | unknown (name : Text)
  deriving DecidableEq, Repr

namespace Command

/-- Whether the argument of a command switches something on.  No argument does. -/
def switch : List Text → Bool
  | [] => true
  | argument :: _ => argument = Text.ofString "on"

/-- The command made up of the words behind the colon. -/
def ofWords : List Text → Command
  | [] => .nothing
  | name :: arguments =>
    if name = Text.ofString "quit" ∨ name = Text.ofString "q" then .quit
    else if name = Text.ofString "tokens" then .tokens (switch arguments)
    else if name = Text.ofString "tree" then .tree (switch arguments)
    else .unknown name

end Command

namespace Session

/-- A new session. -/
def new (recordComments showTokens showTree : Bool) : Session :=
  ⟨Lox.newScanner.setComments (·.withRecorded recordComments), .new, showTokens, showTree⟩

/-- Carries out a command. -/
def execute (s : Session) : Command → Reply × Session
  | .nothing => (⟨false, none, []⟩, s)
  | .quit => (⟨true, none, []⟩, s)
  | .tokens shown => (⟨false, none, []⟩, { s with showTokens := shown })
  | .tree shown => (⟨false, none, []⟩, { s with showTree := shown })
  | .unknown name =>
    let failure := Text.ofString "unknown command :" ++ name
    (⟨false, some failure, error failure⟩, s)

/-- An expression as it is printed. -/
def showStatement (drawn : Bool) (e : Expr) : Text :=
  info e.toText ++ if drawn then e.drawing else []

/-- Evaluates a Lox program. -/
def evaluate (s : Session) (line : Text) : Reply × Session :=
  let scanner := Lox.scan s.scanner line
  let parser := s.parser.parse scanner.tokens
  let tokens := if s.showTokens then tokenTable scanner.tokens else []
  let diagnostics :=
    (Diagnostics.empty.append scanner.diagnostics).append parser.diagnostics
  let errors := diagnostics.toList.flatMap fun d => error d.toText
  let statements := parser.statements.flatMap (showStatement s.showTree)
  (⟨false, diagnostics.failure?, tokens ++ errors ++ statements⟩,
    { s with scanner := scanner, parser := parser })

/-- Evaluates a line. -/
def eval (s : Session) (line : Text) : Reply × Session :=
  match line with
  | 0x3A :: command => s.execute (.ofWords (Text.words command))
  | _ => s.evaluate line

/-- Evaluates a line without the white space around it.  An empty line comes to nothing. -/
def evalTrimmed (s : Session) (line : Text) : Reply × Session :=
  let line := line.trim
  if line.isEmpty then (⟨false, none, []⟩, s) else s.eval line

end Session

/-- The greatest length of a line of a file, together with the line break behind it. -/
def maxLineLength : Nat := 65536

/-- A line without the carriage return at its end. -/
def dropReturn (line : Text) : Text :=
  if line.getLast? = some 0x0D then line.dropLast else line

/-- The lines of a file, as far as they are not too long.  There is no line behind the last
line break. -/
def fileLines (content : Text) : List Text :=
  let parts := content.splitOn 0x0A
  let lines := if parts.getLast? = some [] then parts.dropLast else parts
  (lines.takeWhile fun line => line.length < maxLineLength).map dropReturn

namespace Session

/-- Evaluates lines, and returns what they print.  Commands to quit are ignored. -/
def evalLines (s : Session) : List Text → Text × Session
  | [] => ([], s)
  | line :: rest =>
    let (reply, s) := s.evalTrimmed line
    let (output, s) := s.evalLines rest
    (reply.output ++ output, s)

/-- Evaluates the lines of a file. -/
def evalFile (s : Session) (content : Text) : Text × Session := s.evalLines (fileLines content)

/-- Evaluates lines up to a command to quit, and returns what they print. -/
def converse (s : Session) : List Text → Text × Session
  | [] => ([], s)
  | line :: rest =>
    let (reply, s) := s.evalTrimmed line
    if reply.quit then (reply.output, s)
    else
      let (output, s) := s.converse rest
      (reply.output ++ output, s)

end Session

end Repl

end FrontEnd
