import FrontEnd.Expr.Basic
import Mathlib.Data.List.Basic
import Mathlib.Order.Bounds.Basic

/-!
# The parts of an expression and their addresses

An expression can have equal parts at several places.  What tells them apart is their address: the
way from the root to the part, as the numbers of the direct parts to enter (`Expr.part?`).  The
distance of a part from the root is the length of its address, and the height of a tree is one more
than the greatest of these distances (`Expr.isGreatest_length_address`).

In the order of words, an address comes in front of those that continue it and of those that turn
off to the right of it.  So this is the order in which each part comes in front of its own parts, and
the parts of an expression come from left to right.
-/

namespace FrontEnd

namespace Expr

/-- The part of an expression at an address. -/
def part? : List Nat → Expr → Option Expr
  | [], e => some e
  | i :: address, e => e.children[i]?.bind (part? address)

/-- The part at the first address contains the part at the second one and is another one. -/
def Above (a b : List Nat) : Prop := a <+: b ∧ a ≠ b

variable {e part : Expr} {address a b : List Nat} {i j : Nat}

@[simp] theorem part?_nil (e : Expr) : e.part? [] = some e := rfl

theorem part?_cons_eq_some_iff :
    e.part? (i :: address) = some part ↔
      ∃ child, e.children[i]? = some child ∧ child.part? address = some part :=
  Option.bind_eq_some_iff

theorem not_above_nil : ¬ Above a [] := by
  rintro ⟨isPrefix, other⟩
  exact other (List.prefix_nil.mp isPrefix)

theorem above_nil_cons : Above [] (i :: b) := ⟨List.nil_prefix, (List.cons_ne_nil _ _).symm⟩

theorem above_cons_cons_iff : Above (i :: a) (j :: b) ↔ i = j ∧ Above a b := by
  rw [Above, List.cons_prefix_cons, Above]
  constructor
  · rintro ⟨⟨rfl, isPrefix⟩, other⟩
    exact ⟨rfl, isPrefix, fun same => other (by rw [same])⟩
  · rintro ⟨rfl, isPrefix, other⟩
    exact ⟨⟨rfl, isPrefix⟩, fun same => other (List.cons.inj same).2⟩

/-- What goes over from the direct parts to the whole holds of every expression. -/
theorem children_induction {motive : Expr → Prop}
    (step : ∀ e : Expr, (∀ child ∈ e.children, motive child) → motive e) (e : Expr) : motive e := by
  induction e with
  | hole => exact step _ (List.forall_mem_nil _)
  | literal t => exact step _ (List.forall_mem_nil _)
  | grouped paren inner ih => exact step _ (List.forall_mem_singleton.mpr ih)
  | unary op right ih => exact step _ (List.forall_mem_singleton.mpr ih)
  | binary left op right ihLeft ihRight =>
      exact step _ (List.forall_mem_cons.mpr ⟨ihLeft, List.forall_mem_singleton.mpr ihRight⟩)
  | ternary condition yes no ihCondition ihYes ihNo =>
      exact step _ (List.forall_mem_cons.mpr
        ⟨ihCondition, List.forall_mem_cons.mpr ⟨ihYes, List.forall_mem_singleton.mpr ihNo⟩⟩)

/-- What holds of an expression and of all parts of its direct parts holds of all its parts. -/
theorem forall_part? {P : Expr → Prop} (root : P e)
    (below : ∀ child ∈ e.children, ∀ address part, child.part? address = some part → P part) :
    ∀ address part, e.part? address = some part → P part := by
  rintro (_ | ⟨i, address⟩) part found
  · rw [part?_nil, Option.some_inj] at found
    rw [← found]
    exact root
  · obtain ⟨child, here, found⟩ := part?_cons_eq_some_iff.mp found
    exact below child (List.mem_of_getElem? here) address part found

/-! ## Complete trees -/

theorem ne_hole_of_complete (complete : e.complete = true) : e ≠ .hole := by
  rintro rfl
  cases complete

theorem complete_of_mem_children (complete : e.complete = true) :
    ∀ child ∈ e.children, child.complete = true := by
  cases e with
  | hole => cases complete
  | literal t => exact List.forall_mem_nil _
  | grouped paren inner => exact List.forall_mem_singleton.mpr complete
  | unary op right => exact List.forall_mem_singleton.mpr complete
  | binary left op right =>
      obtain ⟨onLeft, onRight⟩ := Bool.and_eq_true_iff.mp complete
      exact List.forall_mem_cons.mpr ⟨onLeft, List.forall_mem_singleton.mpr onRight⟩
  | ternary condition yes no =>
      obtain ⟨others, onNo⟩ := Bool.and_eq_true_iff.mp complete
      obtain ⟨onCondition, onYes⟩ := Bool.and_eq_true_iff.mp others
      exact List.forall_mem_cons.mpr
        ⟨onCondition, List.forall_mem_cons.mpr ⟨onYes, List.forall_mem_singleton.mpr onNo⟩⟩

/-! ## The height of a tree -/

theorem depth_lt_of_mem_children {child : Expr} (member : child ∈ e.children) :
    child.depth < e.depth := by
  cases e with
  | hole => exact absurd member List.not_mem_nil
  | literal t => exact absurd member List.not_mem_nil
  | grouped paren inner =>
      rw [List.mem_singleton.mp member]
      exact Nat.lt_succ_self _
  | unary op right =>
      rw [List.mem_singleton.mp member]
      exact Nat.lt_succ_self _
  | binary left op right =>
      rw [depth]
      rcases List.mem_pair.mp member with rfl | rfl <;> omega
  | ternary condition yes no =>
      rw [depth]
      simp only [children, List.mem_cons, List.not_mem_nil, or_false] at member
      rcases member with rfl | rfl | rfl <;> omega

/-- A tree is one level higher than the highest of its direct parts. -/
theorem depth_eq_one_or_succ (present : e ≠ .hole) :
    e.depth = 1 ∨ ∃ child ∈ e.children, e.depth = child.depth + 1 := by
  cases e with
  | hole => exact absurd rfl present
  | literal t => exact Or.inl rfl
  | grouped paren inner => exact Or.inr ⟨inner, List.mem_singleton_self _, rfl⟩
  | unary op right => exact Or.inr ⟨right, List.mem_singleton_self _, rfl⟩
  | binary left op right =>
      right
      simp only [children, depth, List.mem_cons, List.not_mem_nil, or_false, exists_eq_or_imp,
        exists_eq_left]
      omega
  | ternary condition yes no =>
      right
      simp only [children, depth, List.mem_cons, List.not_mem_nil, or_false, exists_eq_or_imp,
        exists_eq_left]
      omega

theorem length_lt_depth (complete : e.complete = true) (found : e.part? address = some part) :
    address.length < e.depth := by
  induction address generalizing e with
  | nil =>
      rcases depth_eq_one_or_succ (ne_hole_of_complete complete) with single | ⟨child, _, higher⟩
      · rw [single]
        exact Nat.one_pos
      · rw [higher]
        exact Nat.succ_pos _
  | cons i address ih =>
      obtain ⟨child, here, found⟩ := part?_cons_eq_some_iff.mp found
      have member := List.mem_of_getElem? here
      have below := ih (complete_of_mem_children complete child member) found
      exact Nat.lt_of_le_of_lt below (depth_lt_of_mem_children member)

theorem exists_part?_of_depth (complete : e.complete = true) :
    ∃ address part, e.part? address = some part ∧ address.length + 1 = e.depth := by
  induction e using children_induction with
  | step e ih =>
      rcases depth_eq_one_or_succ (ne_hole_of_complete complete) with
        single | ⟨child, member, higher⟩
      · exact ⟨[], e, rfl, single.symm⟩
      · obtain ⟨address, part, found, deep⟩ :=
          ih child member (complete_of_mem_children complete child member)
        obtain ⟨i, here⟩ := List.getElem?_of_mem member
        refine ⟨i :: address, part, part?_cons_eq_some_iff.mpr ⟨child, here, found⟩, ?_⟩
        rw [List.length_cons, deep, higher]

/-- The longest addresses of a tree are one shorter than the tree is high. -/
theorem isGreatest_length_address (complete : e.complete = true) :
    IsGreatest {n | ∃ address part, e.part? address = some part ∧ address.length = n}
      (e.depth - 1) := by
  constructor
  · obtain ⟨address, part, found, deep⟩ := exists_part?_of_depth complete
    exact ⟨address, part, found, Nat.eq_sub_of_add_eq deep⟩
  · rintro n ⟨address, part, found, rfl⟩
    exact Nat.le_sub_one_of_lt (length_lt_depth complete found)

end Expr

end FrontEnd
