import FrontEnd.Proofs.Scanner.Place
import FrontEnd.Scanner.Action

/-!
# Actions that only move

What a recognizer does before it emits a token or complains is to look at the text and to move
the cursor.  `Moves style x u v a` says of such an action that in front of the text `u ++ v` it
passes over `u`, answers `a` and changes nothing else.  There is one statement for each operation
of a scanner, and actions that move can be put one behind the other (`Moves.bind`).
-/

namespace FrontEnd

open Text (Whole Sweep)

namespace CommentStyle

/-- Whether a text starts with a line comment. -/
def opensLine (style : CommentStyle) (t : Text) : Bool :=
  !style.line.isEmpty && style.line.isPrefixOf t

/-- Whether a text starts with a block comment. -/
def opensBlock (style : CommentStyle) (t : Text) : Bool :=
  !style.blockStart.isEmpty && style.blockStart.isPrefixOf t

/-- Whether a text starts with a comment. -/
def opens (style : CommentStyle) (t : Text) : Bool := style.opensLine t || style.opensBlock t

/-- Whether a text starts with a character of the class `p`, and not with a comment. -/
def outside (style : CommentStyle) (p : Char → Bool) (t : Text) : Bool :=
  !style.opens t && t.frontIs p

end CommentStyle

namespace Scanner

/-- The scanner with its cursor at the offset `n`. -/
def moveTo (s : Scanner) (n : Nat) : Scanner := { s with cursor := s.text.cursorAt n }

/-- The cursor is at the offset `n`, and the text `t` lies ahead. -/
structure Faces (s : Scanner) (n : Nat) (t : Text) : Prop where
  boundary : s.text.Boundary n
  cursor_eq : s.cursor = s.text.cursorAt n
  ahead : s.text.drop n = t

variable {s : Scanner} {n : Nat} {t u v : Text}

theorem Faces.moveTo (faces : s.Faces n (u ++ v)) (whole : Whole u v) :
    (s.moveTo (n + u.length)).Faces (n + u.length) v :=
  ⟨faces.boundary.add faces.ahead whole, rfl, Text.drop_add_of_split faces.ahead⟩

theorem Faces.rest_eq (faces : s.Faces n t) : s.cursor.rest = t := by
  rw [faces.cursor_eq, Text.rest_cursorAt, faces.ahead]

theorem Faces.moveTo_self (faces : s.Faces n t) : s.moveTo n = s := by
  rw [Scanner.moveTo, ← faces.cursor_eq]

theorem faces_reset (s : Scanner) (text : Text) : (s.reset text).Faces 0 text :=
  ⟨.front, (Text.cursorAt_zero text).symm, rfl⟩

theorem Faces.startToken (faces : s.Faces n t) : s.startToken.Faces n t :=
  ⟨faces.boundary, faces.cursor_eq, faces.ahead⟩

theorem Faces.peek?_eq (faces : s.Faces n t) : s.cursor.peek? = t.rune?.map Rune.char := by
  rw [Cursor.peek?, faces.rest_eq]

theorem Faces.advance_eq {c : Text} {r : Rune} (faces : s.Faces n (c ++ v))
    (first : Text.rune? (c ++ v) = some r) (width : c.length = r.width) :
    s.advance = s.moveTo (n + c.length) := by
  rw [← faces.ahead] at first
  rw [advance, faces.cursor_eq, Text.advance_cursorAt faces.boundary first, ← width, Scanner.moveTo]

theorem Faces.advanceWhile_eq {go : Text → Bool} {ahead : Cursor → Bool}
    (faces : s.Faces n (u ++ v)) (sweep : Sweep go u v) (looks : ∀ c, ahead c = go c.rest) :
    s.cursor.advanceWhile ahead 0 = (u.chars.length, s.text.cursorAt (n + u.length)) := by
  rw [faces.cursor_eq, Text.advanceWhile_cursorAt faces.boundary faces.ahead sweep
    (fun m _ => looks _) 0, Nat.zero_add]

end Scanner

theorem peek?_any (c : Cursor) (p : Char → Bool) : c.peek?.any p = c.rest.frontIs p := by
  rw [Cursor.peek?, Option.any_map]
  rfl

namespace ScanAction

/-- In front of `u ++ v` the action passes over `u`, answers `a` and does nothing else. -/
structure Moves {α : Type} (style : CommentStyle) (x : ScanAction α) (u v : Text) (a : α) :
    Prop where
  whole : Whole u v
  run_eq : ∀ (s : Scanner) (n : Nat), s.comments = style → s.Faces n (u ++ v) →
    x.run s = (a, s.moveTo (n + u.length))

variable {α β : Type} {style : CommentStyle} {u v w c : Text} {r : Rune} {a : α} {b : β}

theorem Moves.pure (a : α) (v : Text) : Moves style (pure a) [] v a := by
  refine ⟨.nil v, fun s n _ faces => ?_⟩
  rw [Action.run_pure, List.length_nil, Nat.add_zero, faces.moveTo_self]

theorem Moves.bind {x : ScanAction α} {f : α → ScanAction β} (front : Moves style x u (w ++ v) a)
    (back : Moves style (f a) w v b) : Moves style (x >>= f) (u ++ w) v b := by
  refine ⟨front.whole.append back.whole, fun s n known faces => ?_⟩
  rw [List.append_assoc] at faces
  rw [Action.run_bind, front.run_eq s n known faces, List.length_append, ← Nat.add_assoc]
  exact back.run_eq (s.moveTo (n + u.length)) _ known (faces.moveTo front.whole)

/-- A look at the text that answers `a`, before an action that moves. -/
theorem Moves.bind_nil {x : ScanAction α} {f : α → ScanAction β}
    (front : Moves style x [] (w ++ v) a) (back : Moves style (f a) w v b) :
    Moves style (x >>= f) w v b :=
  front.bind back

/-- An action that moves, before an answer. -/
theorem Moves.bind_pure {x : ScanAction α} {f : α → ScanAction β} (front : Moves style x u v a)
    (back : f a = Pure.pure b) : Moves style (x >>= f) u v b := by
  have answer : Moves style (f a) [] v b := back ▸ Moves.pure b v
  have joined : Moves style (x >>= f) (u ++ []) v b := Moves.bind front answer
  rwa [List.append_nil] at joined

theorem Moves.read {f : Scanner → α}
    (reads : ∀ (s : Scanner) (n : Nat), s.comments = style → s.Faces n v → f s = a) :
    Moves style (Action.read f) [] v a := by
  refine ⟨.nil v, fun s n known faces => ?_⟩
  rw [List.nil_append] at faces
  rw [Action.run_read, reads s n known faces, List.length_nil, Nat.add_zero, faces.moveTo_self]

theorem moves_peek? (v : Text) : Moves style peek? [] v (v.rune?.map Rune.char) :=
  .read fun _ _ _ faces => faces.peek?_eq

theorem moves_peekNext? (v : Text) : Moves style peekNext? [] v (Cursor.start v).peekNext? :=
  .read fun _ _ _ faces => by rw [Cursor.peekNext?, faces.rest_eq]; rfl

theorem moves_atEnd (v : Text) : Moves style atEnd [] v v.isEmpty :=
  .read fun _ _ _ faces => by rw [Cursor.atEnd, faces.rest_eq]

theorem moves_advance (first : Text.rune? (c ++ v) = some r) (width : c.length = r.width) :
    Moves style advance c v (some r.char) := by
  refine ⟨.single first width rfl, fun s n _ faces => ?_⟩
  change (s.cursor.peek?, s.advance) = _
  rw [faces.peek?_eq, first, faces.advance_eq first width]
  rfl

theorem moves_acceptIf {p : Char → Bool} (first : Text.rune? (c ++ v) = some r)
    (width : c.length = r.width) (holds : p r.char = true) :
    Moves style (acceptIf p) c v true := by
  refine ⟨.single first width rfl, fun s n _ faces => ?_⟩
  change (if s.cursor.peek?.any p then (true, s.advance) else (false, s)) = _
  rw [peek?_any, faces.rest_eq, Text.frontIs_of_rune? first, if_pos holds,
    faces.advance_eq first width]

theorem moves_acceptIf_not {p : Char → Bool} (fails : Text.frontIs p v = false) :
    Moves style (acceptIf p) [] v false := by
  refine ⟨.nil v, fun s n _ faces => ?_⟩
  change (if s.cursor.peek?.any p then (true, s.advance) else (false, s)) = _
  rw [peek?_any, faces.rest_eq, List.nil_append, fails, List.length_nil, Nat.add_zero,
    faces.moveTo_self]
  rfl

theorem moves_acceptWhile {p : Char → Bool} (sweep : Sweep (style.outside p) u v) :
    Moves style (acceptWhile p) u v u.chars.length := by
  refine ⟨sweep.stretch.whole, fun s n known faces => ?_⟩
  subst known
  have looks : ∀ c : Cursor, (!s.comments.startsAt c && c.peek?.any p) =
      s.comments.outside p c.rest := by
    intro c
    rw [peek?_any]
    rfl
  rw [acceptWhile]
  simp only [faces.advanceWhile_eq sweep looks]
  rfl

theorem moves_skipWhile {p : Char → Bool} (sweep : Sweep (Text.frontIs p) u v) :
    Moves style (skipWhile p) u v () := by
  refine ⟨sweep.stretch.whole, fun s n _ faces => ?_⟩
  rw [skipWhile, Action.run_move, Scanner.advanceWhile,
    faces.advanceWhile_eq sweep fun c => peek?_any c p]
  rfl

end ScanAction

end FrontEnd
