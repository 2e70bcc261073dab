import FrontEnd.Repl.Session

/-!
# The command line

The program evaluates its arguments as one line, or, if there are none, a file and then the
lines of its input.  Switches come before the arguments and start with one or two dashes;
two dashes alone end them.
-/

namespace FrontEnd

namespace Repl

/-- The settings that switches change. -/
structure Settings where
  trace : Text
  showTokens : Bool
  showTree : Bool
  recordComments : Bool
  /-- The name of a file to evaluate first; empty if there is none. -/
  initFile : Text
  deriving DecidableEq, Repr

namespace Settings

/-- The settings without any switches. -/
def initial : Settings := ⟨Text.ofString "Error", false, false, false, []⟩

/-- The truth value that a text stands for. -/
def truth? (t : Text) : Option Bool :=
  if (["1", "t", "T", "TRUE", "true", "True"].map Text.ofString).contains t then some true
  else if (["0", "f", "F", "FALSE", "false", "False"].map Text.ofString).contains t then
    some false
  else none

/-- The switches that are on or off, and how they change the settings. -/
def setSwitch? (name : Text) : Option (Settings → Bool → Settings) :=
  if name = Text.ofString "tokens" then some fun s b => { s with showTokens := b }
  else if name = Text.ofString "tree" then some fun s b => { s with showTree := b }
  else if name = Text.ofString "record-comments" then
    some fun s b => { s with recordComments := b }
  else none

/-- The switches that take a text, and how they change the settings. -/
def setText? (name : Text) : Option (Settings → Text → Settings) :=
  if name = Text.ofString "trace" then some fun s t => { s with trace := t }
  else if name = Text.ofString "init" then some fun s t => { s with initFile := t }
  else none

end Settings

/-- What a list of arguments asks for. -/
inductive Request where
  /-- To explain the switches. -/
  | help
  /-- Something that cannot be understood. -/
  | invalid
  /-- To evaluate the arguments. -/
  | run (settings : Settings) (arguments : List Text)
  deriving DecidableEq, Repr

/-- An argument that is a switch. -/
inductive Switch where
  /-- Two dashes: no switches follow. -/
  | endOfSwitches
  /-- A switch without a proper name. -/
  | malformed
  /-- A switch, perhaps with a value behind an equals sign. -/
  | named (name : Text) (value : Option Text)
  deriving DecidableEq, Repr

/-- Splits a switch at the first equals sign that is not its first character. -/
def splitValue (t : Text) : Text × Option Text :=
  match t with
  | [] => ([], none)
  | b :: rest =>
    match rest.idxOf? 0x3D with
    | none => (t, none)
    | some i => (b :: rest.take i, some (rest.drop (i + 1)))

/-- The switch with the text `name` behind its dashes. -/
def switchNamed (name : Text) : Switch :=
  match name with
  | [] => .malformed
  | b :: _ =>
    if b = 0x2D ∨ b = 0x3D then .malformed
    else
      let (name, value) := splitValue name
      .named name value

/-- The switch that an argument is, if it is one. -/
def switch? : Text → Option Switch
  | 0x2D :: 0x2D :: [] => some .endOfSwitches
  | 0x2D :: 0x2D :: name => some (switchNamed name)
  | 0x2D :: b :: name => some (switchNamed (b :: name))
  | _ => none

/-- Reads switches and leaves the arguments behind them. -/
def readArguments (settings : Settings) : List Text → Request
  | [] => .run settings []
  | argument :: rest =>
    match switch? argument with
    | none => .run settings (argument :: rest)
    | some .endOfSwitches => .run settings rest
    | some .malformed => .invalid
    | some (.named name value) =>
      match Settings.setSwitch? name, Settings.setText? name with
      | some set, _ =>
        match value with
        | none => readArguments (set settings true) rest
        | some value =>
          match Settings.truth? value with
          | none => .invalid
          | some b => readArguments (set settings b) rest
      | none, some set =>
        match value, rest with
        | some value, rest => readArguments (set settings value) rest
        | none, value :: rest => readArguments (set settings value) rest
        | none, [] => .invalid
      | none, none =>
        if name = Text.ofString "h" ∨ name = Text.ofString "help" then .help else .invalid

/-- What the arguments of the program ask for. -/
def Request.ofArguments (arguments : List Text) : Request :=
  readArguments Settings.initial arguments

/-- What the program prints first. -/
def welcome : Text := info (Text.ofString "Welcome to LoxREPL")

/-- What the program prints before it reads lines. -/
def quitHint : Text := info (Text.ofString "Quit with <ctrl>D")

/-- What the program says at its end, apart from its results. -/
def farewell : Text := Text.ofString "Good bye!"

/-- The session for given settings. -/
def Settings.session (s : Settings) : Session :=
  .new s.recordComments s.showTokens s.showTree

/-- The line that arguments make up. -/
def argumentLine (arguments : List Text) : Text :=
  (Text.join (Text.ofString " ") arguments).trim

/-- What becomes of a run of the program. -/
structure Run where
  exitCode : Nat
  output : Text
  /-- Whether the program took leave. -/
  farewell : Bool
  deriving DecidableEq, Repr

/-- The lines of the input: they end at line feeds and at carriage returns. -/
def inputLines (input : Text) : List Text :=
  (input.map fun b => if b = 0x0D then 0x0A else b).splitOn 0x0A

/-- Runs the program.  `file?` finds the content of a file. -/
def run (file? : Text → Option Text) (arguments : List Text) (input : Text) : Run :=
  match Request.ofArguments arguments with
  | .help => ⟨0, [], false⟩
  | .invalid => ⟨2, [], false⟩
  | .run settings arguments =>
    let line := argumentLine arguments
    if line.isEmpty then
      let content := if settings.initFile.isEmpty then none else file? settings.initFile
      let (fromFile, session) := settings.session.evalFile (content.getD [])
      let (fromInput, _) := session.converse (inputLines input)
      ⟨0, welcome ++ quitHint ++ fromFile ++ fromInput, true⟩
    else
      let (reply, _) := settings.session.eval line
      ⟨if reply.failure.isSome then 2 else 0, welcome ++ reply.output, false⟩

end Repl

end FrontEnd
