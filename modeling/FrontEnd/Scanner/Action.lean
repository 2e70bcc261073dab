import FrontEnd.Scanner.Basic

/-!
# What a recognizer can do

The operations through which the grammar-specific part of a scanner looks at the text
and acts on the scanner.  Each is an action: it moves the scanner by single steps only.
-/

namespace FrontEnd

/-- A program that acts on a scanner by its single steps. -/
abbrev ScanAction (α : Type) := Action Scanner.Step α

namespace ScanAction

/-- The character in front of the cursor. -/
def peek? : ScanAction (Option Char) := .read (·.cursor.peek?)

/-- The character behind the one in front of the cursor. -/
def peekNext? : ScanAction (Option Char) := .read (·.cursor.peekNext?)

/-- Whether the cursor is at the end of the text. -/
def atEnd : ScanAction Bool := .read (·.cursor.atEnd)

/-- Whether the text in front of the cursor starts with `marker`. -/
def startsWith (marker : Text) : ScanAction Bool := .read (·.cursor.startsWith marker)

/-- Whether a comment starts at the cursor. -/
def atComment : ScanAction Bool := .read fun s => s.comments.startsAt s.cursor

/-- The whole source text. -/
def text : ScanAction Text := .read (·.text)

/-- The text between the start of the present token and the cursor. -/
def lexeme : ScanAction Text := .read (·.lexeme)

/-- Moves over one character and returns it. -/
def advance : ScanAction (Option Char) where
  run s := (s.cursor.peek?, s.advance)
  reaches s := .single (.advance s)

/-- Moves over the character in front of the cursor if `p` holds of it. -/
def acceptIf (p : Char → Bool) : ScanAction Bool where
  run s := if s.cursor.peek?.any p then (true, s.advance) else (false, s)
  reaches s := by
    split
    · exact .single (.advance s)
    · exact .refl s

/-- Moves over the character in front of the cursor if it is `c`. -/
def accept (c : Char) : ScanAction Bool := acceptIf (· == c)

/-- Moves over characters of the class `p` up to the start of a comment, and returns how
many there were. -/
def acceptWhile (p : Char → Bool) : ScanAction Nat where
  run s :=
    let go (c : Cursor) : Bool := !s.comments.startsAt c && c.peek?.any p
    let moved := s.cursor.advanceWhile go 0
    (moved.1, { s with cursor := moved.2 })
  reaches s := Scanner.reaches_cursor_advanceWhile _ 0 s

/-- Moves over characters while `p` holds of them, comments included. -/
def skipWhile (p : Char → Bool) : ScanAction Unit :=
  .move (·.advanceWhile fun c => c.peek?.any p) fun s => Scanner.Reaches.advanceWhile s _

/-- Moves until at least `offset` bytes are behind the cursor. -/
def advanceTo (offset : Int) : ScanAction Unit :=
  .move (·.advanceTo offset) fun s => Scanner.Reaches.advanceTo s offset

/-- Starts a token at the cursor. -/
def startToken : ScanAction Unit := .move (·.startToken) fun s => .single (.startToken s)

/-- Emits the text between mark and cursor as a token. -/
def addToken (kind : TokenKind) (literal : Option Literal) : ScanAction Unit :=
  .move (·.addToken kind literal) fun s => .single (.addToken s kind literal)

/-- Adds a diagnostic about the present token. -/
def report (message : Text) : ScanAction Unit :=
  .move (·.report message) fun s => Scanner.Reaches.report s message

/-- Adds a diagnostic. -/
def reportAt (location : Location) (message : Text) : ScanAction Unit :=
  .move (·.reportAt location message) fun s => .single (.reportAt s location message)

/-- Sets the marker of line comments. -/
def lineComments (marker : Text) : ScanAction Unit :=
  .move (·.setComments (·.withLine marker)) fun s => .single (.lineComments s marker)

/-- Sets the markers of block comments. -/
def blockComments (start stop : Text) : ScanAction Unit :=
  .move (·.setComments (·.withBlock start stop)) fun s => .single (.blockComments s start stop)

/-- Sets whether comments are emitted as tokens. -/
def recordComments (recorded : Bool) : ScanAction Unit :=
  .move (·.setComments (·.withRecorded recorded)) fun s => .single (.recordComments s recorded)

end ScanAction

/-- The grammar-specific part of a scanner, with a memory of type `σ` of its own. -/
structure Recognizer (σ : Type) where
  /-- Runs when a scan starts. -/
  begin : σ → ScanAction σ
  /-- Reads one token from the cursor on.  The answer is whether there was one; a
  recognizer that moves the cursor answers for itself what it found. -/
  recognize : σ → ScanAction (Bool × σ)

/-- A scanner for a recognizer, without which it cannot do anything. -/
def Scanner.forRecognizer {σ : Type} (r : Option (Recognizer σ)) (comments : CommentStyle) :
    Except Text (Recognizer σ × Scanner) :=
  match r with
  | none => .error (Text.ofString "scanner needs a recognizer")
  | some r => .ok (r, .new comments)

end FrontEnd
