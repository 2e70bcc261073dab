import FrontEnd.Repl.CommandLine

/-!
# The program

The outer layer: it takes the arguments, reads the file and the input line by line, and
prints what a session answers.
-/

namespace FrontEnd

namespace Repl

/-- The bytes of a text. -/
def bytes (t : Text) : ByteArray := ⟨t.toArray⟩

/-- Prints a text. -/
def put (t : Text) : IO Unit := do
  let out ← IO.getStdout
  out.write (bytes t)
  out.flush

/-- The content of a file, if it can be read. -/
def readFile? (name : Text) : IO (Option Text) := do
  match String.fromUTF8? (bytes name) with
  | none => return none
  | some path =>
    try
      let content ← IO.FS.readBinFile path
      return some content.toList
    catch _ => return none

/-- Evaluates the lines of the input until it ends or a line asks to quit. -/
partial def converseIn (input : IO.FS.Stream) (s : Session) : IO Unit := do
  let line ← input.getLine
  if line.isEmpty then return
  let (reply, s) := s.evalTrimmed (Text.ofString line)
  put reply.output
  unless reply.quit do converseIn input s

/-- How the switches are explained. -/
def usage : String :=
  "Usage: [-trace level] [-tokens] [-tree] [-record-comments] [-init file] [line]"

end Repl

end FrontEnd

open FrontEnd FrontEnd.Repl in
/-- Runs the program. -/
def main (arguments : List String) : IO UInt32 := do
  match Request.ofArguments (arguments.map Text.ofString) with
  | .help =>
    IO.eprintln usage
    return 0
  | .invalid =>
    IO.eprintln usage
    return 2
  | .run settings arguments =>
    put welcome
    let line := argumentLine arguments
    if line.isEmpty then
      put quitHint
      let content ← if settings.initFile.isEmpty then pure none else readFile? settings.initFile
      let (output, session) := settings.session.evalFile (content.getD [])
      put output
      converseIn (← IO.getStdin) session
      (← IO.getStderr).write (bytes (farewell ++ [0x0A]))
      return 0
    else
      let (reply, _) := settings.session.eval line
      put reply.output
      return if reply.failure.isSome then 2 else 0
