import FrontEnd.Action
import FrontEnd.Diagnostic
import FrontEnd.Scanner.Cursor
import FrontEnd.Token

/-!
# Scanners

A scanner goes through a source text with a cursor, and marks where the token it is
reading starts.  It holds the tokens and the diagnostics of its text, and knows how
comments look.

`Scanner.Step` lists the single steps a scanner can take.  Everything that happens to a
scanner while it scans, and everything a recognizer may do to it, is made of these steps.
-/

namespace FrontEnd

/-- How comments look.  A comment starts with `line` and ends in front of the next line
break, or starts with `blockStart` and ends behind the next `blockEnd`.  An empty marker
stands for "no such comments". -/
structure CommentStyle where
  line : Text
  blockStart : Text
  blockEnd : Text
  /-- Whether comments are emitted as tokens. -/
  recorded : Bool
  deriving DecidableEq, Repr

namespace CommentStyle

/-- No comments. -/
def off : CommentStyle := ⟨[], [], [], false⟩

/-- Sets the marker of line comments. -/
def withLine (style : CommentStyle) (marker : Text) : CommentStyle :=
  { style with line := marker }

/-- Sets the markers of block comments.  Without a start or without an end there are no
block comments. -/
def withBlock (style : CommentStyle) (start stop : Text) : CommentStyle :=
  if start.isEmpty || stop.isEmpty then { style with blockStart := [], blockEnd := [] }
  else { style with blockStart := start, blockEnd := stop }

/-- Sets whether comments are emitted as tokens. -/
def withRecorded (style : CommentStyle) (recorded : Bool) : CommentStyle :=
  { style with recorded := recorded }

/-- Whether a line comment starts at the cursor. -/
def startsLine (style : CommentStyle) (c : Cursor) : Bool :=
  !style.line.isEmpty && c.startsWith style.line

/-- Whether a block comment starts at the cursor. -/
def startsBlock (style : CommentStyle) (c : Cursor) : Bool :=
  !style.blockStart.isEmpty && c.startsWith style.blockStart

/-- Whether a comment starts at the cursor. -/
def startsAt (style : CommentStyle) (c : Cursor) : Bool :=
  style.startsLine c || style.startsBlock c

end CommentStyle

/-- The state of a scanner. -/
structure Scanner where
  comments : CommentStyle
  /-- The whole source text. -/
  text : Text
  /-- Where the present token starts. -/
  mark : Cursor
  cursor : Cursor
  /-- The tokens found so far, the latest one first. -/
  latestFirst : List Token
  diagnostics : Diagnostics
  deriving DecidableEq, Repr

namespace Scanner

/-- A scanner that has not seen a text yet. -/
def new (comments : CommentStyle) : Scanner :=
  ⟨comments, [], .nowhere, .nowhere, [], .empty⟩

/-- A scanner at the front of a new text. -/
def reset (s : Scanner) (text : Text) : Scanner :=
  { s with
    text := text
    mark := .start text
    cursor := .start text
    latestFirst := []
    diagnostics := .empty }

/-- The tokens found so far. -/
def tokens (s : Scanner) : List Token := s.latestFirst.reverse

/-- The text between the start of the present token and the cursor. -/
def lexeme (s : Scanner) : Text := s.mark.rest.take (s.cursor.offset - s.mark.offset)

/-- Moves the cursor over one character. -/
def advance (s : Scanner) : Scanner := { s with cursor := s.cursor.advance }

/-- Starts a token at the cursor. -/
def startToken (s : Scanner) : Scanner := { s with mark := s.cursor }

/-- Emits the text between mark and cursor as a token, and starts the next one. -/
def addToken (s : Scanner) (kind : TokenKind) (literal : Option Literal) : Scanner :=
  { s with
    latestFirst :=
      { kind := kind
        lexeme := s.lexeme
        location := s.mark.location
        span := ⟨s.mark.offset, s.cursor.offset⟩
        literal := literal } :: s.latestFirst
    mark := s.cursor }

/-- Adds a diagnostic. -/
def reportAt (s : Scanner) (location : Location) (message : Text) : Scanner :=
  { s with diagnostics := s.diagnostics.add location message }

/-- Adds a diagnostic about the present token. -/
def report (s : Scanner) (message : Text) : Scanner := s.reportAt s.mark.location message

/-- Sets how comments look. -/
def setComments (s : Scanner) (f : CommentStyle → CommentStyle) : Scanner :=
  { s with comments := f s.comments }

/-- The single steps of a scanner. -/
inductive Step : Scanner → Scanner → Prop where
  | advance (s : Scanner) : Step s s.advance
  | startToken (s : Scanner) : Step s s.startToken
  | addToken (s : Scanner) (kind : TokenKind) (literal : Option Literal) :
      Step s (s.addToken kind literal)
  | reportAt (s : Scanner) (location : Location) (message : Text) :
      Step s (s.reportAt location message)
  | lineComments (s : Scanner) (marker : Text) :
      Step s (s.setComments (·.withLine marker))
  | blockComments (s : Scanner) (start stop : Text) :
      Step s (s.setComments (·.withBlock start stop))
  | recordComments (s : Scanner) (recorded : Bool) :
      Step s (s.setComments (·.withRecorded recorded))

/-- The scanner takes single steps from one state to another. -/
abbrev Reaches : Scanner → Scanner → Prop := Steps Step

theorem Reaches.report (s : Scanner) (message : Text) : Reaches s (s.report message) :=
  .single (.reportAt s s.mark.location message)

/-- Moves the cursor over characters while `go` holds. -/
def advanceWhile (s : Scanner) (go : Cursor → Bool) : Scanner :=
  { s with cursor := (s.cursor.advanceWhile go 0).2 }

/-- Moves the cursor until at least `offset` bytes are behind it. -/
def advanceTo (s : Scanner) (offset : Int) : Scanner :=
  { s with cursor := s.cursor.advanceTo offset }

theorem reaches_cursor_advanceWhile (go : Cursor → Bool) (count : Nat) (s : Scanner) :
    Reaches s { s with cursor := (s.cursor.advanceWhile go count).2 } := by
  generalize hc : s.cursor = c
  fun_induction Cursor.advanceWhile go count c generalizing s with
  | case1 count c h => subst hc; exact .refl s
  | case2 count c h hgo ih =>
    subst hc
    exact (Steps.single (.advance s)).trans (ih s.advance rfl)
  | case3 count c h hgo => subst hc; exact .refl s

theorem Reaches.advanceWhile (s : Scanner) (go : Cursor → Bool) :
    Reaches s (s.advanceWhile go) :=
  reaches_cursor_advanceWhile go 0 s

theorem Reaches.advanceTo (s : Scanner) (offset : Int) : Reaches s (s.advanceTo offset) :=
  reaches_cursor_advanceWhile _ 0 s

/-- The bytes behind and in front of the cursor always add up to the same number. -/
theorem Reaches.total_eq {s t : Scanner} (h : Reaches s t) :
    t.cursor.total = s.cursor.total := by
  induction h with
  | refl => rfl
  | tail _ step ih =>
    rw [← ih]
    cases step <;> simp [Scanner.advance, Scanner.startToken, Scanner.addToken,
      Scanner.reportAt, setComments]

/-- The cursor never moves backwards. -/
theorem Reaches.offset_le {s t : Scanner} (h : Reaches s t) :
    s.cursor.offset ≤ t.cursor.offset := by
  induction h with
  | refl => exact Nat.le_refl _
  | tail _ step ih =>
    refine Nat.le_trans ih ?_
    cases step <;> simp [Scanner.advance, Scanner.startToken, Scanner.addToken,
      Scanner.reportAt, setComments, Cursor.offset_le_advance]

/-- A cursor that has moved has fewer bytes in front of it. -/
theorem Reaches.length_lt {s t : Scanner} (h : Reaches s t)
    (moved : s.cursor.offset < t.cursor.offset) :
    t.cursor.rest.length < s.cursor.rest.length := by
  have := h.total_eq
  simp only [Cursor.total] at this
  omega

/-- No step makes bytes in front of the cursor. -/
theorem Reaches.length_le {s t : Scanner} (h : Reaches s t) :
    t.cursor.rest.length ≤ s.cursor.rest.length := by
  have := h.total_eq
  have := h.offset_le
  simp only [Cursor.total] at *
  omega

end Scanner

end FrontEnd
