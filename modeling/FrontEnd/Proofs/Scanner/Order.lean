import FrontEnd.Proofs.Scanner.Moments
import FrontEnd.Scanner.Script

/-!
# Tokens in order, offsets in range

At every moment of a scan the tokens found so far stand in the order of the text and do not
overlap, the mark is never past the cursor, and the cursor is in the text (`moment_ordered`).

A cursor carries the text ahead of it, so that its operations have nothing to look up.  The
namespace `ByOffset` holds the same operations for a scanner that knows offsets only, and has to cut
what it looks at out of the whole text: this fails if the offsets are not in range.  At every
moment of a scan the two agree, so none of these operations ever fails (`Sound.inRange`).
-/

namespace FrontEnd

/-- The complaint about a cut at offsets that a text does not have, or not in this order. -/
structure OutOfRange where
  first : Int
  stop : Int
  deriving DecidableEq, Repr

namespace Text

/-- The bytes of a text from the offset `first` up to the offset `stop`. -/
def slice (text : Text) (first stop : Int) : Except OutOfRange Text :=
  if 0 ≤ first ∧ first ≤ stop ∧ stop ≤ text.length then
    .ok ((text.take stop.toNat).drop first.toNat)
  else .error ⟨first, stop⟩

variable {text : Text} {i j : Nat}

theorem slice_eq_ok (le : i ≤ j) (bounded : j ≤ text.length) :
    text.slice i j = .ok ((text.take j).drop i) := by
  have inRange : (0 : Int) ≤ i ∧ (i : Int) ≤ j ∧ (j : Int) ≤ text.length := by omega
  rw [slice, if_pos inRange, Int.toNat_natCast, Int.toNat_natCast]

theorem slice_eq_drop (bounded : i ≤ text.length) :
    text.slice i text.length = .ok (text.drop i) := by
  rw [slice_eq_ok bounded (Nat.le_refl _), List.take_length]

end Text

theorem Span.overlaps_eq_false {x y : Span} (inOrder : x.stop ≤ y.first) :
    x.overlaps y = false ∧ y.overlaps x = false := by
  have behind : ¬ y.first < x.stop := Int.not_lt.mpr inOrder
  constructor
  · rw [Span.overlaps, decide_eq_false behind, Bool.and_false]
  · rw [Span.overlaps, decide_eq_false behind, Bool.false_and]

namespace Scanner

namespace ByOffset

/-- The text from the cursor on. -/
def ahead (s : Scanner) : Except OutOfRange Text := s.text.slice s.cursor.offset s.text.length

def atEnd (s : Scanner) : Bool := s.text.length ≤ s.cursor.offset

def peek (s : Scanner) : Except OutOfRange (Option Char) :=
  if atEnd s then .ok none else do return (← ahead s).rune?.map (·.char)

def peekNext (s : Scanner) : Except OutOfRange (Option Char) :=
  if atEnd s then .ok none
  else do
    let width := ((← ahead s).rune?.map (·.width)).getD 0
    if s.text.length ≤ s.cursor.offset + width then return none
    return (← s.text.slice (s.cursor.offset + width : Nat) s.text.length).rune?.map (·.char)

def startsWith (marker : Text) (s : Scanner) : Except OutOfRange Bool := do
  return marker.isPrefixOf (← ahead s)

def atComment (s : Scanner) : Except OutOfRange Bool := do
  let line ← startsWith s.comments.line s
  let block ← startsWith s.comments.blockStart s
  return !s.comments.line.isEmpty && line || !s.comments.blockStart.isEmpty && block

/-- What is searched for the end of a block comment that starts at the cursor. -/
def commentBody (s : Scanner) : Except OutOfRange Text :=
  s.text.slice (s.cursor.offset + s.comments.blockStart.length : Nat) s.text.length

def advance (s : Scanner) : Except OutOfRange Scanner :=
  if atEnd s then .ok s
  else do
    match (← ahead s).rune? with
    | none => return s
    | some r =>
      let behind ← s.text.slice (s.cursor.offset + r.width : Nat) s.text.length
      let location :=
        if Cursor.breaksLine r.char behind then s.cursor.location.nextLine
        else s.cursor.location.nextColumn
      return { s with cursor := ⟨behind, s.cursor.offset + r.width, location⟩ }

def acceptIf (p : Char → Bool) (s : Scanner) : Except OutOfRange (Bool × Scanner) := do
  if (← peek s).any p then return (true, ← advance s)
  return (false, s)

theorem advance_moves {s t : Scanner} (before : atEnd s = false) (moved : advance s = .ok t) :
    t.text = s.text ∧ s.cursor.offset < t.cursor.offset := by
  rw [atEnd, decide_eq_false_iff_not] at before
  have present : s.text.drop s.cursor.offset ≠ [] := by
    rw [Ne, List.drop_eq_nil_iff]
    exact before
  obtain ⟨r, first⟩ := Text.exists_rune? present
  have positive := Text.width_pos_of_rune? first
  have whole : ahead s = .ok (s.text.drop s.cursor.offset) := Text.slice_eq_drop (by omega)
  unfold advance at moved
  rw [whole] at moved
  simp only [atEnd, before, decide_false, Bool.false_eq_true, ↓reduceIte, bind, Except.bind,
    first] at moved
  split at moved
  · cases moved
  · cases moved
    exact ⟨rfl, Nat.lt_add_of_pos_right positive⟩

/-- Moves the cursor while `go` holds; returns `count` plus the number of characters passed. -/
def advanceWhile (go : Scanner → Except OutOfRange Bool) (count : Nat) (s : Scanner) :
    Except OutOfRange (Nat × Scanner) :=
  if _before : atEnd s then .ok (count, s)
  else
    match go s, _moved : advance s with
    | .error e, _ => .error e
    | .ok false, _ => .ok (count, s)
    | .ok true, .error e => .error e
    | .ok true, .ok t => advanceWhile go (count + 1) t
termination_by s.text.length - s.cursor.offset
decreasing_by
  obtain ⟨text, moved⟩ := advance_moves (by simpa using _before) _moved
  simp only [atEnd, decide_eq_true_eq, Nat.not_le] at _before
  rw [text]
  omega

theorem advanceWhile_of_go {go : Scanner → Except OutOfRange Bool} {s t : Scanner}
    (before : atEnd s = false) (goes : go s = .ok true) (moved : advance s = .ok t) (count : Nat) :
    advanceWhile go count s = advanceWhile go (count + 1) t := by
  rw [advanceWhile, dif_neg (Bool.eq_false_iff.mp before), goes]
  split
  · rename_i failed
    cases failed
  · rename_i stopped
    cases stopped
  · rename_i failed
    rw [moved] at failed
    cases failed
  · rename_i movedToo
    rw [moved] at movedToo
    cases movedToo
    rfl

theorem advanceWhile_of_stop {go : Scanner → Except OutOfRange Bool} {s : Scanner}
    (before : atEnd s = false) (stops : go s = .ok false) (count : Nat) :
    advanceWhile go count s = .ok (count, s) := by
  rw [advanceWhile, dif_neg (Bool.eq_false_iff.mp before), stops]

def acceptWhile (p : Char → Bool) (s : Scanner) : Except OutOfRange (Nat × Scanner) :=
  advanceWhile (fun t => do return !(← atComment t) && (← peek t).any p) 0 s

def advanceTo (offset : Int) (s : Scanner) : Except OutOfRange Scanner := do
  return (← advanceWhile (fun t => .ok (t.cursor.offset < offset)) 0 s).2

def lexeme (s : Scanner) : Except OutOfRange Text := s.text.slice s.mark.offset s.cursor.offset

def addToken (kind : TokenKind) (literal : Option Literal) (s : Scanner) :
    Except OutOfRange Scanner := do
  let lexeme ← lexeme s
  let token : Token :=
    ⟨kind, lexeme, s.mark.location, ⟨s.mark.offset, s.cursor.offset⟩, literal⟩
  return { s with latestFirst := token :: s.latestFirst, mark := s.cursor }

end ByOffset

/-- No operation on the scanner cuts the text at offsets that are out of range, and each does what
it does with a cursor that carries the text ahead. -/
structure InRange (s : Scanner) : Prop where
  peek : ByOffset.peek s = .ok s.cursor.peek?
  peekNext : ByOffset.peekNext s = .ok s.cursor.peekNext?
  startsWith : ∀ marker, ByOffset.startsWith marker s = .ok (s.cursor.startsWith marker)
  atComment : ByOffset.atComment s = .ok (s.comments.startsAt s.cursor)
  commentBody : s.comments.startsBlock s.cursor = true →
    ByOffset.commentBody s = .ok (s.cursor.rest.drop s.comments.blockStart.length)
  advance : ByOffset.advance s = .ok s.advance
  acceptIf : ∀ p, ByOffset.acceptIf p s = .ok ((ScanAction.acceptIf p).run s)
  acceptWhile : ∀ p, ByOffset.acceptWhile p s = .ok ((ScanAction.acceptWhile p).run s)
  advanceTo : ∀ offset, ByOffset.advanceTo offset s = .ok (s.advanceTo offset)
  lexeme : ByOffset.lexeme s = .ok s.lexeme
  addToken : ∀ kind literal, ByOffset.addToken kind literal s = .ok (s.addToken kind literal)

/-! ## The operations by offset agree with those on cursors -/

section Agreement

variable {text : Text} {s : Scanner}

theorem Sound.ahead_eq (sound : s.Sound text) : ByOffset.ahead s = .ok s.cursor.rest := by
  rw [ByOffset.ahead, sound.text_eq, Text.slice_eq_drop sound.cursor.offset_le,
    sound.cursor.rest_eq]

theorem Sound.atEnd_eq (sound : s.Sound text) : ByOffset.atEnd s = s.cursor.atEnd := by
  rw [ByOffset.atEnd, Cursor.atEnd, sound.text_eq, sound.cursor.rest_eq, Bool.eq_iff_iff,
    decide_eq_true_iff, List.isEmpty_iff, List.drop_eq_nil_iff]

/-- Behind the character at the cursor the text goes on, or ends. -/
theorem Sound.slice_next (sound : s.Sound text) {r : Rune} (first : s.cursor.rest.rune? = some r) :
    s.text.slice (s.cursor.offset + r.width : Nat) s.text.length =
      .ok (s.cursor.rest.drop r.width) := by
  rw [sound.cursor.rest_eq] at first ⊢
  have boundary := Text.Boundary.next sound.cursor.boundary first
  rw [sound.text_eq, Text.slice_eq_drop boundary.le_length, List.drop_drop]

theorem Sound.peek_eq (sound : s.Sound text) : ByOffset.peek s = .ok s.cursor.peek? := by
  rw [ByOffset.peek, sound.atEnd_eq, sound.ahead_eq]
  cases ended : s.cursor.atEnd with
  | true =>
      rw [Cursor.peek?, List.isEmpty_iff.mp ended]
      rfl
  | false => rfl

theorem Sound.peekNext_eq (sound : s.Sound text) :
    ByOffset.peekNext s = .ok s.cursor.peekNext? := by
  rw [ByOffset.peekNext, sound.atEnd_eq, sound.ahead_eq]
  cases ended : s.cursor.atEnd with
  | true =>
      rw [Cursor.peekNext?, List.isEmpty_iff.mp ended]
      rfl
  | false =>
      obtain ⟨r, first⟩ := Text.exists_rune? (List.isEmpty_eq_false_iff.mp ended)
      simp only [Bool.false_eq_true, ↓reduceIte, bind, Except.bind, first, Option.map_some,
        Option.getD_some, Cursor.peekNext?, sound.slice_next first]
      split
      · rename_i last
        have nothing : s.cursor.rest.drop r.width = [] := by
          rw [sound.cursor.rest_eq, List.drop_drop, List.drop_eq_nil_iff, ← sound.text_eq]
          exact last
        rw [nothing]
        rfl
      · rfl

theorem Sound.startsWith_eq (sound : s.Sound text) (marker : Text) :
    ByOffset.startsWith marker s = .ok (s.cursor.startsWith marker) := by
  rw [ByOffset.startsWith, sound.ahead_eq]
  rfl

theorem Sound.atComment_eq (sound : s.Sound text) :
    ByOffset.atComment s = .ok (s.comments.startsAt s.cursor) := by
  rw [ByOffset.atComment, sound.startsWith_eq, sound.startsWith_eq]
  rfl

theorem Sound.commentBody_eq (sound : s.Sound text)
    (starts : s.comments.startsBlock s.cursor = true) :
    ByOffset.commentBody s = .ok (s.cursor.rest.drop s.comments.blockStart.length) := by
  -- The marker is found ahead of the cursor, so it ends in the text.
  have found : s.comments.blockStart <+: text.drop s.cursor.offset := by
    rw [CommentStyle.startsBlock, Bool.and_eq_true, Cursor.startsWith, sound.cursor.rest_eq]
      at starts
    exact List.isPrefixOf_iff_prefix.mp starts.2
  have fits := found.length_le
  rw [List.length_drop] at fits
  have bounded := sound.cursor.offset_le
  rw [ByOffset.commentBody, sound.text_eq, Text.slice_eq_drop (by omega), sound.cursor.rest_eq,
    List.drop_drop]

theorem Sound.advance_eq (sound : s.Sound text) : ByOffset.advance s = .ok s.advance := by
  rw [ByOffset.advance, sound.atEnd_eq, sound.ahead_eq]
  cases ended : s.cursor.atEnd with
  | true =>
      rw [Scanner.advance, Cursor.advance_of_atEnd ended]
      rfl
  | false =>
      obtain ⟨r, first⟩ := Text.exists_rune? (List.isEmpty_eq_false_iff.mp ended)
      simp only [Bool.false_eq_true, ↓reduceIte, bind, Except.bind, first, sound.slice_next first,
        Scanner.advance, Cursor.advance]
      rfl

theorem Sound.acceptIf_eq (sound : s.Sound text) (p : Char → Bool) :
    ByOffset.acceptIf p s = .ok ((ScanAction.acceptIf p).run s) := by
  rw [ByOffset.acceptIf, sound.peek_eq, sound.advance_eq]
  change (if s.cursor.peek?.any p = true then _ else _) =
    Except.ok (if s.cursor.peek?.any p then (true, s.advance) else (false, s))
  split <;> rfl

theorem Sound.advanceWhile_eq {go : Scanner → Except OutOfRange Bool} (sound : s.Sound text)
    (holds : Cursor → Bool)
    (looks : ∀ t : Scanner, t.Sound text → t.comments = s.comments → go t = .ok (holds t.cursor))
    (count : Nat) :
    ByOffset.advanceWhile go count s = .ok ((s.cursor.advanceWhile holds count).1,
      { s with cursor := (s.cursor.advanceWhile holds count).2 }) := by
  generalize known : s.cursor = c
  -- Along the way of the cursor, for every sound scanner that holds it.
  fun_induction Cursor.advanceWhile holds count c generalizing s with
  | case1 count c ended =>
      subst known
      rw [ByOffset.advanceWhile, sound.atEnd_eq, ended]
      rfl
  | case2 count c before goes ih =>
      subst known
      have inFront := sound.atEnd_eq.trans (Bool.eq_false_iff.mpr before)
      have look := looks s sound rfl
      rw [goes] at look
      rw [ByOffset.advanceWhile_of_go inFront look sound.advance_eq]
      exact ih sound.advance looks rfl
  | case3 count c before stops =>
      subst known
      have inFront := sound.atEnd_eq.trans (Bool.eq_false_iff.mpr before)
      have look := looks s sound rfl
      rw [Bool.eq_false_iff.mpr stops] at look
      exact ByOffset.advanceWhile_of_stop inFront look count

theorem Sound.acceptWhile_eq (sound : s.Sound text) (p : Char → Bool) :
    ByOffset.acceptWhile p s = .ok ((ScanAction.acceptWhile p).run s) := by
  apply sound.advanceWhile_eq
  intro t sound comments
  rw [sound.atComment_eq, sound.peek_eq, comments]
  rfl

theorem Sound.advanceTo_eq (sound : s.Sound text) (offset : Int) :
    ByOffset.advanceTo offset s = .ok (s.advanceTo offset) := by
  rw [ByOffset.advanceTo, sound.advanceWhile_eq (fun c => c.offset < offset) fun _ _ _ => rfl]
  rfl

theorem Sound.lexeme_eq_slice (sound : s.Sound text) : ByOffset.lexeme s = .ok s.lexeme := by
  rw [ByOffset.lexeme, sound.text_eq, Text.slice_eq_ok sound.mark_le sound.cursor.offset_le,
    sound.lexeme_eq]

theorem Sound.addToken_eq (sound : s.Sound text) (kind : TokenKind) (literal : Option Literal) :
    ByOffset.addToken kind literal s = .ok (s.addToken kind literal) := by
  rw [ByOffset.addToken, sound.lexeme_eq_slice]
  rfl

theorem Sound.inRange (sound : s.Sound text) : s.InRange where
  peek := sound.peek_eq
  peekNext := sound.peekNext_eq
  startsWith := sound.startsWith_eq
  atComment := sound.atComment_eq
  commentBody := sound.commentBody_eq
  advance := sound.advance_eq
  acceptIf := sound.acceptIf_eq
  acceptWhile := sound.acceptWhile_eq
  advanceTo := sound.advanceTo_eq
  lexeme := sound.lexeme_eq_slice
  addToken := sound.addToken_eq

end Agreement

/-! ## Every moment -/

theorem Sound.bounds {text : Text} {s : Scanner} (sound : s.Sound text) :
    ∀ x ∈ s.tokens, 0 ≤ x.span.first ∧ x.span.first ≤ x.span.stop ∧
      x.span.stop ≤ s.mark.offset ∧ text.slice x.span.first x.span.stop = .ok x.lexeme := by
  intro x member
  obtain ⟨i, j, cut, limited⟩ := sound.cut x member
  rw [cut.span_eq, cut.lexeme_eq]
  exact ⟨Int.natCast_nonneg i, Int.ofNat_le.mpr cut.le, Int.ofNat_le.mpr limited,
    Text.slice_eq_ok cut.le cut.stop.le_length⟩

/-- At every moment of a scan, and of what is done after it, the mark is never past the cursor and
the cursor is in the text; every token is cut out of the text before the mark, and tokens are in
order and do not overlap; the cursor never goes back; and no operation is out of range. -/
theorem moment_ordered {σ : Type} {r : Recognizer σ} {strict : Bool} {memory : σ} {s t : Scanner}
    {text : Text} (moment : Moment r strict memory s text t) :
    t.text = text ∧ t.mark.offset ≤ t.cursor.offset ∧ t.cursor.offset ≤ text.length ∧
      (∀ x ∈ t.tokens, 0 ≤ x.span.first ∧ x.span.first ≤ x.span.stop ∧
        x.span.stop ≤ t.mark.offset ∧ text.slice x.span.first x.span.stop = .ok x.lexeme) ∧
      t.tokens.Pairwise (fun x y => x.span.stop ≤ y.span.first ∧
        x.span.overlaps y.span = false ∧ y.span.overlaps x.span = false) ∧
      (∀ u, Reaches t u → t.cursor.offset ≤ u.cursor.offset) ∧
      t.InRange := by
  have sound := moment.sound
  refine ⟨sound.text_eq, sound.mark_le, sound.cursor.offset_le, sound.bounds, ?_,
    fun _ reaches => reaches.offset_le, sound.inRange⟩
  exact sound.sorted.imp fun inOrder => ⟨inOrder, Span.overlaps_eq_false inOrder⟩

/-- A recognizer that jumps into the middle of a character and adds an empty token. -/
def jumping : Recognizer ScriptMemory :=
  scripted [] [[.perform (.advanceTo 1), .perform (.addToken 1 none), .perform (.addToken 2 none)]]

/-- In front of `é!`, after the first turn of a scan with `jumping`. -/
theorem moment_ordered_jumping :
    ∃ t, Moment jumping false .empty (.new .off) [0xC3, 0xA9, 0x21] t ∧
      t.tokens.map Token.span = [⟨0, 2⟩, ⟨2, 2⟩] ∧ t.mark.offset ≤ t.cursor.offset ∧
      t.tokens.Pairwise (fun x y => x.span.stop ≤ y.span.first ∧
        x.span.overlaps y.span = false ∧ y.span.overlaps x.span = false) ∧
      t.InRange := by
  have moment : Moment jumping false .empty (.new .off) [0xC3, 0xA9, 0x21]
      (turn jumping false .empty ((Scanner.new .off).reset [0xC3, 0xA9, 0x21])).scanner :=
    .scanning (.within (reaches_turn jumping false .empty _) (.refl _))
  obtain ⟨_, mark, _, _, inOrder, _, inRange⟩ := moment_ordered moment
  exact ⟨_, moment, by decide +kernel, mark, inOrder, inRange⟩

end Scanner

end FrontEnd
