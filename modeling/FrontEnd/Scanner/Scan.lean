import FrontEnd.Scanner.Action
import FrontEnd.Text.Blank

/-!
# Scanning a text

A scan skips white space, reads comments by itself and leaves everything else to a
recognizer.  It never stops at an error: a recognizer that finds nothing, or claims to
have found something without moving, costs one character and one diagnostic.  A strict
scan gives up in the second case.

Main statement: `Scanner.Turn.length_lt`, every turn of a scan that is followed by another
one leaves fewer bytes in front of the cursor.  So every scan ends.
-/

namespace FrontEnd

namespace Scanner

/-- What a scan itself finds wrong. -/
inductive Fault where
  /-- No token starts with this character. -/
  | unexpected (c : Char)
  /-- The recognizer found a token without moving. -/
  | stuck (c : Char)
  /-- A block comment has no end. -/
  | unterminatedComment
  deriving DecidableEq, Repr

/-- The wording of a fault. -/
def Fault.message : Fault → Text
  | .unexpected c => Text.ofString "unexpected character " ++ Text.quotedChar c
  | .stuck c => Text.ofString "scanner stuck at character " ++ Text.quotedChar c
  | .unterminatedComment => Text.ofString "unterminated multi-line comment"

/-- Moves over white space. -/
def skipBlanks (s : Scanner) : Scanner := s.advanceWhile fun c => c.peek?.any Text.isBlank

/-- Whether the cursor is in front of a character that is no line break. -/
def beforeLineBreak (c : Cursor) : Bool := c.peek?.any fun r => r != '\n' && r != '\r'

/-- Emits the text between mark and cursor as a comment, if comments are recorded. -/
def emitComment (s : Scanner) : Scanner :=
  if s.comments.recorded then s.addToken .comment none else s

/-- Reads a line comment, up to the next line break or the end of the text. -/
def lineComment? (s : Scanner) : Option Scanner :=
  if s.comments.startsLine s.cursor then some (s.advanceWhile beforeLineBreak).emitComment
  else none

/-- Reads a block comment.  If its end is missing, only the start marker is read. -/
def blockComment? (s : Scanner) : Option Scanner :=
  if s.comments.startsBlock s.cursor then
    let inner := s.cursor.offset + s.comments.blockStart.length
    match Text.indexOf? s.comments.blockEnd
        (s.cursor.rest.drop s.comments.blockStart.length) with
    | none => some ((s.report Fault.unterminatedComment.message).advanceTo inner)
    | some n => some (s.advanceTo (inner + n + s.comments.blockEnd.length)).emitComment
  else none

/-- Reads a comment, if one starts at the cursor.  If both markers fit, the longer one
decides, and the block marker if they have the same length. -/
def comment? (s : Scanner) : Option Scanner :=
  if s.comments.line.length ≤ s.comments.blockStart.length then
    s.blockComment?.or s.lineComment?
  else s.lineComment?.or s.blockComment?

/-- Where a scan stands after a turn. -/
inductive Turn (σ : Type) where
  /-- The text is used up. -/
  | done (s : Scanner)
  /-- There may be more. -/
  | next (memory : σ) (s : Scanner)
  /-- The recognizer claims to have found a token, but did not move. -/
  | stuck (memory : σ) (s : Scanner)

/-- Passes over the character at which nothing was recognized. -/
def passOver (s : Scanner) (fault : Char → Fault) : Scanner :=
  (s.report (fault (s.cursor.peek?.getD Rune.replacement)).message).advance

/-- Lets the recognizer read a token. -/
def attempt {σ : Type} (r : Recognizer σ) (strict : Bool) (memory : σ) (s : Scanner) :
    Turn σ :=
  let result := (r.recognize memory).run s
  let found := result.1.1
  let memory := result.1.2
  let t := result.2
  if s.cursor.offset < t.cursor.offset then .next memory t
  else if !found then .next memory (t.passOver .unexpected)
  else if strict then .stuck memory t
  else .next memory (t.passOver .stuck)

/-- One turn of a scan: white space, then a comment or a token. -/
def turn {σ : Type} (r : Recognizer σ) (strict : Bool) (memory : σ) (s : Scanner) : Turn σ :=
  let s := s.skipBlanks
  if s.cursor.atEnd then .done s
  else
    let s := s.startToken
    match s.comment? with
    | some t => .next memory t
    | none => attempt r strict memory s

theorem Reaches.emitComment (s : Scanner) : Reaches s s.emitComment := by
  unfold Scanner.emitComment
  split
  · exact .single (.addToken s _ _)
  · exact .refl s

@[simp] theorem cursor_emitComment (s : Scanner) : s.emitComment.cursor = s.cursor := by
  unfold emitComment
  split <;> simp [addToken]

/-- A comment is read by steps of the scanner, and a cursor that is in front of anything
but a line break moves. -/
theorem lineComment?_moves {s t : Scanner} (h : s.lineComment? = some t)
    (before : s.cursor.atEnd = false) (inLine : beforeLineBreak s.cursor) :
    Reaches s t ∧ s.cursor.offset < t.cursor.offset := by
  simp only [lineComment?] at h
  split at h
  · cases h
    refine ⟨(Reaches.advanceWhile s _).trans (Reaches.emitComment _), ?_⟩
    simpa [advanceWhile] using Cursor.offset_lt_advanceWhile before inLine
  · simp at h

theorem blockComment?_moves {s t : Scanner} (h : s.blockComment? = some t)
    (before : s.cursor.atEnd = false) :
    Reaches s t ∧ s.cursor.offset < t.cursor.offset := by
  simp only [blockComment?] at h
  split at h
  · rename_i starts
    have marker : 0 < s.comments.blockStart.length := by
      simp only [CommentStyle.startsBlock, Bool.and_eq_true, Bool.not_eq_true',
        List.isEmpty_eq_false_iff] at starts
      exact List.length_pos_iff.2 starts.1
    split at h
    · cases h
      refine ⟨(Reaches.report s _).trans (Reaches.advanceTo _ _), ?_⟩
      simp only [advanceTo, Cursor.advanceTo, report, reportAt]
      exact Cursor.offset_lt_advanceWhile before (by simp; omega)
    · cases h
      refine ⟨(Reaches.advanceTo s _).trans (Reaches.emitComment _), ?_⟩
      simp only [advanceTo, Cursor.advanceTo, cursor_emitComment]
      exact Cursor.offset_lt_advanceWhile before (by simp; omega)
  · simp at h

theorem comment?_moves {s t : Scanner} (h : s.comment? = some t)
    (before : s.cursor.atEnd = false) (inLine : beforeLineBreak s.cursor) :
    Reaches s t ∧ s.cursor.offset < t.cursor.offset := by
  simp only [comment?] at h
  split at h <;> rcases Option.or_eq_some_iff.1 h with h | ⟨_, h⟩
  · exact blockComment?_moves h before
  · exact lineComment?_moves h before inLine
  · exact lineComment?_moves h before inLine
  · exact blockComment?_moves h before

theorem Reaches.passOver (s : Scanner) (fault : Char → Fault) :
    Reaches s (s.passOver fault) :=
  (Reaches.report s _).trans (.single (.advance _))

/-- Behind white space a cursor is not in front of a line break. -/
theorem beforeLineBreak_skipBlanks {s : Scanner} (h : s.skipBlanks.cursor.atEnd = false) :
    beforeLineBreak s.skipBlanks.cursor := by
  have stop := Cursor.stop_advanceWhile (fun c => c.peek?.any Text.isBlank) 0 s.cursor
  simp only [skipBlanks, advanceWhile] at h ⊢
  rcases stop with stop | stop
  · simp [h] at stop
  · revert h stop
    generalize (s.cursor.advanceWhile _ 0).2 = c
    intro h stop
    simp only [beforeLineBreak]
    cases hc : c.peek? with
    | none =>
      simp only [Cursor.peek?, Option.map_eq_none_iff, Text.rune?_eq_none] at hc
      simp [Cursor.atEnd, hc] at h
    | some r =>
      simp only [hc, Option.any_some] at stop ⊢
      have newline : Text.isBlank '\n' = true := by decide
      have carriage : Text.isBlank '\r' = true := by decide
      simp only [Bool.and_eq_true, bne_iff_ne, ne_eq]
      constructor <;> rintro rfl <;> simp_all

/-- A recognizer that moves nowhere costs one character, so the cursor always moves. -/
theorem attempt_moves {σ : Type} {r : Recognizer σ} {strict : Bool} {memory memory' : σ}
    {s t : Scanner} (h : attempt r strict memory s = .next memory' t)
    (before : s.cursor.atEnd = false) :
    Reaches s t ∧ s.cursor.offset < t.cursor.offset := by
  have reaches : Reaches s ((r.recognize memory).run s).2 := (r.recognize memory).reaches s
  simp only [attempt] at h
  revert h reaches
  generalize ((r.recognize memory).run s).2 = u
  intro h reaches
  have passed (fault : Char → Fault) (same : ¬ s.cursor.offset < u.cursor.offset) :
      s.cursor.offset < (u.passOver fault).cursor.offset := by
    have total := reaches.total_eq
    have le := reaches.offset_le
    have inFront : u.cursor.atEnd = false := by
      simp only [Cursor.total] at total
      simp only [Cursor.atEnd, List.isEmpty_eq_false_iff, ← List.length_pos_iff] at before ⊢
      omega
    have : u.cursor.offset < (u.passOver fault).cursor.offset := by
      simpa only [passOver, advance, report, reportAt] using Cursor.offset_lt_advance inFront
    omega
  split at h
  · rename_i lt
    cases h
    exact ⟨reaches, lt⟩
  rename_i same
  split at h
  · cases h
    exact ⟨reaches.trans (Reaches.passOver u _), passed _ same⟩
  split at h
  · simp at h
  · cases h
    exact ⟨reaches.trans (Reaches.passOver u _), passed _ same⟩

/-- A turn that is followed by another one takes steps of the scanner, and moves the cursor on
from the end of the white space. -/
theorem turn_moves {σ : Type} {r : Recognizer σ} {strict : Bool} {memory memory' : σ}
    {s t : Scanner} (h : turn r strict memory s = .next memory' t) :
    Reaches s.skipBlanks t ∧ s.skipBlanks.cursor.offset < t.cursor.offset := by
  have started : Reaches s.skipBlanks s.skipBlanks.startToken := .single (.startToken _)
  simp only [turn] at h
  split at h
  · simp at h
  rename_i before
  have before : s.skipBlanks.startToken.cursor.atEnd = false := by
    simpa [startToken] using before
  have inLine : beforeLineBreak s.skipBlanks.startToken.cursor :=
    beforeLineBreak_skipBlanks before
  have moves : Reaches s.skipBlanks.startToken t ∧
      s.skipBlanks.startToken.cursor.offset < t.cursor.offset := by
    split at h
    · rename_i u hu
      cases h
      exact comment?_moves hu before inLine
    · exact attempt_moves h before
  exact ⟨started.trans moves.1, moves.2⟩

theorem Reaches.skipBlanks (s : Scanner) : Reaches s s.skipBlanks := Reaches.advanceWhile s _

theorem Turn.length_lt {σ : Type} {r : Recognizer σ} {strict : Bool} {memory memory' : σ}
    {s t : Scanner} (h : turn r strict memory s = .next memory' t) :
    t.cursor.rest.length < s.cursor.rest.length := by
  obtain ⟨reaches, moved⟩ := turn_moves h
  exact Nat.lt_of_lt_of_le (reaches.length_lt moved) (Reaches.skipBlanks s).length_le

/-- The outcome of a scan. -/
structure Outcome (σ : Type) where
  scanner : Scanner
  memory : σ
  /-- Where a strict scan gave up. -/
  stuck : Option Location

/-- Scans the text in front of the cursor. -/
def scanRest {σ : Type} (r : Recognizer σ) (strict : Bool) (memory : σ) (s : Scanner) :
    Outcome σ :=
  match _h : turn r strict memory s with
  | .done t => ⟨t, memory, none⟩
  | .stuck memory t => ⟨t, memory, some t.cursor.location⟩
  | .next memory t => scanRest r strict memory t
termination_by s.cursor.rest.length
decreasing_by exact Turn.length_lt _h

section Rest

variable {σ : Type} {r : Recognizer σ} {strict : Bool} {memory memory' : σ} {s t : Scanner}

theorem scanRest_of_done (h : turn r strict memory s = .done t) :
    scanRest r strict memory s = ⟨t, memory, none⟩ := by
  rw [scanRest]
  split <;> simp_all

theorem scanRest_of_stuck (h : turn r strict memory s = .stuck memory' t) :
    scanRest r strict memory s = ⟨t, memory', some t.cursor.location⟩ := by
  rw [scanRest]
  split <;> simp_all

theorem scanRest_of_next (h : turn r strict memory s = .next memory' t) :
    scanRest r strict memory s = scanRest r strict memory' t := by
  rw [scanRest]
  split <;> simp_all

end Rest

/-- Scans a text from its front. -/
def scan {σ : Type} (r : Recognizer σ) (strict : Bool) (memory : σ) (s : Scanner)
    (text : Text) : Outcome σ :=
  match (r.begin memory).run (s.reset text) with
  | (memory, s) => scanRest r strict memory s

/-- The complaint of a strict scan that gave up. -/
def stuckMessage (location : Location) : Text :=
  Text.ofString "recognizer did not consume input at " ++ location.toText

end Scanner

end FrontEnd
