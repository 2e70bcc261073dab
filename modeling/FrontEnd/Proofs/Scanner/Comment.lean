import FrontEnd.Proofs.Scanner.Moves
import FrontEnd.Scanner.Scan

/-!
# Comments

Which bytes a comment takes, whatever its markers are.  `Comment style closed u v` says that the
text `u ++ v` starts with a comment, that a scan takes the bytes `u` for it, and whether it has
an end.  Reading a comment follows this (`comment?_of_comment`), and there is a comment at every
opening marker (`exists_comment`).
-/

namespace FrontEnd

open Text (Whole Sweep)

namespace Text

/-- Whether a text goes on in its line. -/
def inLine : Text → Bool := frontIs fun c => c != '\n' && c != '\r'

/-- Whether `t`, the last part of `whole`, starts less than `k` bytes behind its front. -/
def within (whole : Text) (k : Nat) (t : Text) : Bool := whole.length < t.length + k

end Text

/-- The text `u ++ v` starts with the comment `u`; `closed` tells whether the comment has an
end. -/
inductive Comment (style : CommentStyle) : Bool → Text → Text → Prop where
  | line {u v : Text} (opens : style.opensLine (u ++ v) = true)
      (decides : style.opensBlock (u ++ v) = true → style.blockStart.length < style.line.length)
      (sweep : Sweep Text.inLine u v) : Comment style true u v
  | block {u v : Text} {n : Nat} (opens : style.opensBlock (u ++ v) = true)
      (decides : style.opensLine (u ++ v) = true → style.line.length ≤ style.blockStart.length)
      (found : Text.indexOf? style.blockEnd ((u ++ v).drop style.blockStart.length) = some n)
      (sweep : Sweep
        (Text.within (u ++ v) (style.blockStart.length + n + style.blockEnd.length)) u v) :
      Comment style true u v
  | unclosed {u v : Text} (opens : style.opensBlock (u ++ v) = true)
      (decides : style.opensLine (u ++ v) = true → style.line.length ≤ style.blockStart.length)
      (missing : Text.indexOf? style.blockEnd ((u ++ v).drop style.blockStart.length) = none)
      (sweep : Sweep (Text.within (u ++ v) style.blockStart.length) u v) :
      Comment style false u v

variable {style : CommentStyle} {closed : Bool} {t u v : Text}

theorem blockStart_ne_nil (opens : style.opensBlock t = true) : 0 < style.blockStart.length := by
  rw [CommentStyle.opensBlock, Bool.and_eq_true, Bool.not_eq_true', List.isEmpty_eq_false_iff]
    at opens
  exact List.length_pos_iff.mpr opens.1

theorem exists_comment (opens : style.opens t = true) :
    ∃ closed u v, t = u ++ v ∧ Comment style closed u v := by
  by_cases block : style.opensBlock t = true ∧
      (style.opensLine t = true → style.line.length ≤ style.blockStart.length)
  · obtain ⟨opensBlock, decides⟩ := block
    cases found : Text.indexOf? style.blockEnd (t.drop style.blockStart.length) with
    | none =>
        obtain ⟨u, v, rfl, sweep⟩ :=
          Text.exists_sweep (Text.within t style.blockStart.length) t
        exact ⟨false, u, v, rfl, .unclosed opensBlock decides found sweep⟩
    | some n =>
        obtain ⟨u, v, rfl, sweep⟩ := Text.exists_sweep
          (Text.within t (style.blockStart.length + n + style.blockEnd.length)) t
        exact ⟨true, u, v, rfl, .block opensBlock decides found sweep⟩
  · obtain ⟨u, v, rfl, sweep⟩ := Text.exists_sweep Text.inLine t
    have line : style.opensLine (u ++ v) = true := by
      by_contra noLine
      rw [CommentStyle.opens, Bool.eq_false_iff.mpr noLine, Bool.false_or] at opens
      exact block ⟨opens, fun line => absurd line noLine⟩
    refine ⟨true, u, v, rfl, .line line (fun opensBlock => ?_) sweep⟩
    by_contra shorter
    exact block ⟨opensBlock, fun _ => Nat.not_lt.mp shorter⟩

/-- A comment that does not stand at a line break takes some bytes. -/
theorem Comment.ne_nil (comment : Comment style closed u v)
    (visible : Text.inLine (u ++ v) = true) : u ≠ [] := by
  have present : u ++ v ≠ [] := by
    intro empty
    rw [empty] at visible
    cases visible
  cases comment with
  | line _ _ sweep => exact sweep.ne_nil visible present
  | block opens _ _ sweep =>
      refine sweep.ne_nil ?_ present
      have := blockStart_ne_nil opens
      rw [Text.within, decide_eq_true_iff]
      omega
  | unclosed opens _ _ sweep =>
      refine sweep.ne_nil ?_ present
      have := blockStart_ne_nil opens
      rw [Text.within, decide_eq_true_iff]
      omega

theorem Comment.whole (comment : Comment style closed u v) : Whole u v := by
  cases comment with
  | line _ _ sweep => exact sweep.stretch.whole
  | block _ _ _ sweep => exact sweep.stretch.whole
  | unclosed _ _ _ sweep => exact sweep.stretch.whole

namespace Scanner

variable {s : Scanner} {n : Nat}

theorem Faces.advanceTo_eq {k : Nat} (faces : s.Faces n (u ++ v))
    (sweep : Sweep (Text.within (u ++ v) k) u v) :
    s.advanceTo ((n + k : Nat) : Int) = s.moveTo (n + u.length) := by
  have looks : ∀ m, m ≤ s.text.length →
      decide (((s.text.cursorAt m).offset : Int) < ((n + k : Nat) : Int)) =
        Text.within (u ++ v) k (s.text.drop m) := by
    intro m bounded
    have start := faces.boundary.le_length
    rw [← faces.ahead, Text.within, decide_eq_decide, Text.offset_cursorAt, List.length_drop,
      List.length_drop]
    omega
  rw [advanceTo, Cursor.advanceTo, faces.cursor_eq,
    Text.advanceWhile_cursorAt faces.boundary faces.ahead sweep looks 0, Scanner.moveTo]

theorem startsLine_eq (faces : s.Faces n t) :
    s.comments.startsLine s.cursor = s.comments.opensLine t := by
  rw [← faces.rest_eq]
  rfl

theorem startsBlock_eq (faces : s.Faces n t) :
    s.comments.startsBlock s.cursor = s.comments.opensBlock t := by
  rw [← faces.rest_eq]
  rfl

theorem lineComment?_eq_none (faces : s.Faces n t) (closed : s.comments.opensLine t = false) :
    s.lineComment? = none := by
  rw [lineComment?, startsLine_eq faces, closed]
  rfl

theorem blockComment?_eq_none (faces : s.Faces n t) (closed : s.comments.opensBlock t = false) :
    s.blockComment? = none := by
  rw [blockComment?, startsBlock_eq faces, closed]
  rfl

theorem comment?_eq_none (faces : s.Faces n t) (closed : s.comments.opens t = false) :
    s.comment? = none := by
  rw [CommentStyle.opens, Bool.or_eq_false_iff] at closed
  rw [comment?, lineComment?_eq_none faces closed.1, blockComment?_eq_none faces closed.2]
  exact ite_self none

theorem comment?_eq_lineComment? (faces : s.Faces n t) (opens : s.comments.opensLine t = true)
    (decides : s.comments.opensBlock t = true →
      s.comments.blockStart.length < s.comments.line.length) :
    s.comment? = s.lineComment? := by
  rw [comment?]
  by_cases block : s.comments.opensBlock t = true
  · rw [if_neg (Nat.not_le.mpr (decides block)), lineComment?, startsLine_eq faces, opens]
    rfl
  · rw [blockComment?_eq_none faces (Bool.eq_false_iff.mpr block), Option.none_or, Option.or_none]
    exact ite_self _

theorem comment?_eq_blockComment? (faces : s.Faces n t) (opens : s.comments.opensBlock t = true)
    (decides : s.comments.opensLine t = true →
      s.comments.line.length ≤ s.comments.blockStart.length) :
    s.comment? = s.blockComment? := by
  have some : s.blockComment?.isSome = true := by
    rw [blockComment?, startsBlock_eq faces, opens]
    simp only [↓reduceIte]
    split <;> rfl
  rw [comment?]
  by_cases line : s.comments.opensLine t = true
  · rw [if_pos (decides line), Option.or_of_isSome some]
  · rw [lineComment?_eq_none faces (Bool.eq_false_iff.mpr line), Option.none_or, Option.or_none]
    exact ite_self _

/-- What is read as a comment: all of it if it has an end, and a complaint if it has none. -/
theorem comment?_of_comment (faces : s.Faces n (u ++ v)) (comment : Comment s.comments closed u v) :
    s.comment? = some (if closed then (s.moveTo (n + u.length)).emitComment
      else (s.moveTo (n + u.length)).report Fault.unterminatedComment.message) := by
  have offset : s.cursor.offset = n := by rw [faces.cursor_eq, Text.offset_cursorAt]
  cases comment with
  | line opens decides sweep =>
      have looks : ∀ c, beforeLineBreak c = Text.inLine c.rest := fun c => peek?_any c _
      have moved : s.advanceWhile beforeLineBreak = s.moveTo (n + u.length) := by
        rw [Scanner.advanceWhile, faces.advanceWhile_eq sweep looks, moveTo]
      rw [comment?_eq_lineComment? faces opens decides, lineComment?, startsLine_eq faces, opens,
        moved]
      rfl
  | block opens decides found sweep =>
      have moved := faces.advanceTo_eq sweep
      rw [← Nat.add_assoc, ← Nat.add_assoc] at moved
      rw [comment?_eq_blockComment? faces opens decides, blockComment?, startsBlock_eq faces, opens,
        faces.rest_eq, found, offset]
      simp only [↓reduceIte]
      exact congrArg (fun t => some (emitComment t)) moved
  | unclosed opens decides missing sweep =>
      have moved := faces.advanceTo_eq sweep
      rw [comment?_eq_blockComment? faces opens decides, blockComment?, startsBlock_eq faces, opens,
        faces.rest_eq, missing, offset]
      simp only [↓reduceIte]
      exact congrArg (fun t => some (report t Fault.unterminatedComment.message)) moved

end Scanner

end FrontEnd
