import FrontEnd.Regex.Longest
import Mathlib.Data.List.Basic

/-!
# Matching is right

What may follow a byte is all that may follow it (`matches_cons_iff`), so a match that goes byte by
byte knows at each place which of its expressions match the bytes so far (`first_next`).  The
longest match at the front of a text is therefore found, and the first expression for it
(`best_longest_iff`).
-/

namespace FrontEnd

namespace Regex

/-- One of the expressions matches the text. -/
def AnyMatches (rs : List Regex) (t : Text) : Prop := ∃ r ∈ rs, Matches r t

variable {r s : Regex} {rs ds : List Regex} {b : UInt8} {t : Text}

theorem anyMatches_append : AnyMatches (rs ++ ds) t ↔ AnyMatches rs t ∨ AnyMatches ds t := by
  simp only [AnyMatches, List.mem_append, or_and_right, exists_or]

theorem not_anyMatches_nil : ¬ AnyMatches [] t := by
  rintro ⟨r, member, _⟩
  cases member

theorem anyMatches_singleton : AnyMatches [r] t ↔ Matches r t := by
  simp only [AnyMatches, List.mem_singleton, exists_eq_left]

/-! ## One expression -/

theorem matches_empty_iff : Matches .empty t ↔ t = [] := by
  constructor
  · rintro ⟨⟩
    rfl
  · rintro rfl
    exact .empty

theorem matches_byte_iff {c : ByteClass} :
    Matches (.byte c) t ↔ ∃ b, t = [b] ∧ c.contains b = true := by
  constructor
  · rintro ⟨⟩
    exact ⟨_, rfl, ‹_›⟩
  · rintro ⟨b, rfl, contained⟩
    exact .byte contained

theorem matches_seq_iff : Matches (.seq r s) t ↔ ∃ u v, t = u ++ v ∧ Matches r u ∧ Matches s v := by
  constructor
  · rintro ⟨⟩
    exact ⟨_, _, rfl, ‹_›, ‹_›⟩
  · rintro ⟨u, v, rfl, front, back⟩
    exact .seq front back

theorem matches_alt_iff : Matches (.alt r s) t ↔ Matches r t ∨ Matches s t := by
  constructor
  · intro whole
    cases whole with
    | left here => exact Or.inl here
    | right here => exact Or.inr here
  · exact fun either => either.elim .left .right

theorem nullable_iff (r : Regex) : r.nullable = true ↔ Matches r [] := by
  induction r with
  | empty => exact iff_of_true rfl .empty
  | byte c =>
      refine iff_of_false Bool.false_ne_true ?_
      rw [matches_byte_iff]
      rintro ⟨b, none, _⟩
      cases none
  | seq r s ihr ihs =>
      rw [nullable, Bool.and_eq_true, ihr, ihs, matches_seq_iff]
      constructor
      · rintro ⟨front, back⟩
        exact ⟨[], [], rfl, front, back⟩
      · rintro ⟨u, v, none, front, back⟩
        obtain ⟨rfl, rfl⟩ := List.append_eq_nil_iff.mp none.symm
        exact ⟨front, back⟩
  | alt r s ihr ihs => rw [nullable, Bool.or_eq_true, ihr, ihs, matches_alt_iff]
  | star r _ => exact iff_of_true rfl .done

theorem matches_followedBy_iff : Matches (followedBy s r) t ↔ Matches (.seq r s) t := by
  cases r with
  | empty =>
      rw [followedBy, matches_seq_iff]
      constructor
      · exact fun whole => ⟨[], t, rfl, .empty, whole⟩
      · rintro ⟨u, v, rfl, front, back⟩
        rw [matches_empty_iff.mp front]
        exact back
  | byte | seq | alt | star => rfl

/-- The first byte of a sequence is the first one of its front part, unless this is empty. -/
theorem matches_seq_cons_iff : Matches (.seq r s) (b :: t) ↔
    (∃ u v, t = u ++ v ∧ Matches r (b :: u) ∧ Matches s v) ∨ Matches r [] ∧ Matches s (b :: t) := by
  rw [matches_seq_iff]
  constructor
  · rintro ⟨u, v, split, front, back⟩
    cases u with
    | nil =>
        rw [List.nil_append] at split
        exact Or.inr ⟨front, split ▸ back⟩
    | cons x u =>
        obtain ⟨rfl, rfl⟩ := List.cons.inj split
        exact Or.inl ⟨u, v, rfl, front, back⟩
  · rintro (⟨u, v, rfl, front, back⟩ | ⟨front, back⟩)
    · exact ⟨b :: u, v, rfl, front, back⟩
    · exact ⟨[], b :: t, rfl, front, back⟩

/-- The first byte of a repetition is the first one of a text that is repeated. -/
theorem matches_star_cons_iff : Matches (.star r) (b :: t) ↔
    ∃ u v, t = u ++ v ∧ Matches r (b :: u) ∧ Matches (.star r) v := by
  constructor
  · intro whole
    -- Repetitions of the empty text in front are passed over by induction.
    generalize repeated : Regex.star r = q at whole
    generalize all : b :: t = w at whole
    induction whole with
    | empty | byte | seq | left | right => cases repeated
    | done => cases all
    | @more r' u v front back _ ihBack =>
        obtain rfl : r = r' := Regex.star.inj repeated
        cases u with
        | nil => exact ihBack repeated all
        | cons x u =>
            obtain ⟨rfl, rfl⟩ := List.cons.inj all
            exact ⟨u, v, rfl, front, back⟩
  · rintro ⟨u, v, rfl, front, back⟩
    exact .more front back

theorem anyMatches_map_followedBy : AnyMatches (ds.map (followedBy s)) t ↔
    ∃ u v, t = u ++ v ∧ AnyMatches ds u ∧ Matches s v := by
  constructor
  · rintro ⟨_, member, rest⟩
    obtain ⟨d, inside, rfl⟩ := List.mem_map.mp member
    obtain ⟨u, v, split, front, back⟩ := matches_seq_iff.mp (matches_followedBy_iff.mp rest)
    exact ⟨u, v, split, ⟨d, inside, front⟩, back⟩
  · rintro ⟨u, v, rfl, ⟨d, inside, front⟩, back⟩
    exact ⟨_, List.mem_map_of_mem inside, matches_followedBy_iff.mpr (.seq front back)⟩

/-- What follows the byte `b` in a match is what one of the expressions behind `b` matches. -/
theorem matches_cons_iff (r : Regex) (b : UInt8) (t : Text) :
    Matches r (b :: t) ↔ AnyMatches (partials b r) t := by
  induction r generalizing t with
  | empty =>
      refine iff_of_false ?_ not_anyMatches_nil
      rw [matches_empty_iff]
      exact List.cons_ne_nil b t
  | byte c =>
      rw [matches_byte_iff, partials]
      by_cases contained : c.contains b = true
      · rw [if_pos contained, anyMatches_singleton, matches_empty_iff]
        constructor
        · rintro ⟨x, same, _⟩
          exact (List.cons.inj same).2
        · rintro rfl
          exact ⟨b, rfl, contained⟩
      · rw [if_neg contained]
        refine iff_of_false ?_ not_anyMatches_nil
        rintro ⟨x, same, holds⟩
        obtain ⟨rfl, -⟩ := List.cons.inj same
        exact contained holds
  | seq r s ihr ihs =>
      rw [matches_seq_cons_iff, partials, anyMatches_append, anyMatches_map_followedBy,
        ← nullable_iff]
      simp only [ihr]
      cases nullable r with
      | true => simp only [true_and, ihs, ↓reduceIte]
      | false => simp only [Bool.false_eq_true, false_and, ↓reduceIte, not_anyMatches_nil]
  | alt r s ihr ihs => rw [matches_alt_iff, ihr, ihs, partials, anyMatches_append]
  | star r ih =>
      rw [matches_star_cons_iff, partials, anyMatches_map_followedBy]
      simp only [ih]

/-! ## Several expressions at once -/

theorem anyMatches_partials :
    AnyMatches (rs.flatMap (partials b)).eraseDups t ↔ AnyMatches rs (b :: t) := by
  simp only [AnyMatches, List.mem_eraseDups, List.mem_flatMap, matches_cons_iff]
  constructor
  · rintro ⟨d, ⟨r, member, inside⟩, rest⟩
    exact ⟨r, member, d, inside, rest⟩
  · rintro ⟨r, member, d, inside, rest⟩
    exact ⟨d, ⟨r, member, inside⟩, rest⟩

namespace Matching

variable {α : Type} {live : Matching α} {name a : α}

/-- The name `a` is the first one of which an expression matches the text. -/
inductive First (t : Text) (a : α) : Matching α → Prop where
  | here {rs : List Regex} {live : Matching α} (found : AnyMatches rs t) :
      First t a ((a, rs) :: live)
  | later {name : α} {rs : List Regex} {live : Matching α} (other : ¬ AnyMatches rs t)
      (rest : First t a live) : First t a ((name, rs) :: live)

theorem not_first_nil : ¬ First t a [] := by
  rintro ⟨⟩

theorem first_cons_of_not (other : ¬ AnyMatches rs t) :
    First t a ((name, rs) :: live) ↔ First t a live := by
  constructor
  · intro first
    cases first with
    | here found => exact absurd found other
    | later _ rest => exact rest
  · exact .later other

theorem first_cons_of_anyMatches (found : AnyMatches rs t) :
    First t a ((name, rs) :: live) ↔ name = a := by
  constructor
  · intro first
    cases first with
    | here => rfl
    | later other => exact absurd found other
  · rintro rfl
    exact .here found

theorem forall_not_first_iff : (∀ a, ¬ First t a live) ↔ ∀ x ∈ live, ¬ AnyMatches x.2 t := by
  induction live with
  | nil => exact iff_of_true (fun _ => not_first_nil) fun _ member => absurd member List.not_mem_nil
  | cons x live ih =>
      obtain ⟨name, rs⟩ := x
      rw [List.forall_mem_cons, ← ih]
      by_cases found : AnyMatches rs t
      · exact iff_of_false (fun none => none name (.here found)) fun none => none.1 found
      · simp only [first_cons_of_not found, found, not_false_eq_true, true_and]

theorem any_nullable_iff : rs.any nullable = true ↔ AnyMatches rs [] := by
  simp only [List.any_eq_true, nullable_iff, AnyMatches]

theorem accepted?_cons (name : α) (rs : List Regex) (live : Matching α) :
    accepted? ((name, rs) :: live) = if rs.any nullable then some name else live.accepted? := by
  simp only [accepted?, List.find?_cons]
  cases rs.any nullable <;> rfl

/-- A state knows which expressions match exactly the bytes that it has read. -/
theorem accepted?_eq_some_iff : live.accepted? = some a ↔ First [] a live := by
  induction live with
  | nil => exact iff_of_false (Option.some_ne_none a).symm not_first_nil
  | cons x live ih =>
      obtain ⟨name, rs⟩ := x
      rw [accepted?_cons]
      by_cases found : AnyMatches rs []
      · rw [first_cons_of_anyMatches found, if_pos (any_nullable_iff.mpr found), Option.some_inj]
      · rw [first_cons_of_not found, if_neg (mt any_nullable_iff.mp found), ih]

theorem next_cons (name : α) (rs : List Regex) (live : Matching α) (b : UInt8) :
    next ((name, rs) :: live) b =
      if (rs.flatMap (partials b)).eraseDups.isEmpty then live.next b
      else (name, (rs.flatMap (partials b)).eraseDups) :: live.next b := by
  simp only [next, List.map_cons, List.filter_cons]
  cases (rs.flatMap (partials b)).eraseDups.isEmpty <;> rfl

/-- The state behind one more byte. -/
theorem first_next : First t a (live.next b) ↔ First (b :: t) a live := by
  induction live with
  | nil => exact iff_of_false not_first_nil not_first_nil
  | cons x live ih =>
      obtain ⟨name, rs⟩ := x
      have behind : AnyMatches (rs.flatMap (partials b)).eraseDups t ↔ AnyMatches rs (b :: t) :=
        anyMatches_partials
      rw [next_cons]
      by_cases found : AnyMatches rs (b :: t)
      · have goesOn : ¬ (rs.flatMap (partials b)).eraseDups.isEmpty = true := by
          intro stuck
          rw [List.isEmpty_iff.mp stuck] at behind
          exact not_anyMatches_nil (behind.mpr found)
        rw [if_neg goesOn, first_cons_of_anyMatches found,
          first_cons_of_anyMatches (behind.mpr found)]
      · rw [first_cons_of_not found, ← ih]
        split
        · rfl
        · exact first_cons_of_not (mt behind.mp found)

/-- Nothing that is longer than `n` bytes matches at the front of `t`. -/
def NoneBeyond (live : Matching α) (t : Text) (n : Nat) : Prop :=
  ∀ m, n < m → m ≤ t.length → ∀ c, ¬ First (t.take m) c live

/-- The longest match at the front of `t` has `n` bytes, and `a` is the first name for it. -/
structure IsLongest (live : Matching α) (t : Text) (n : Nat) (a : α) : Prop where
  inside : n ≤ t.length
  first : First (t.take n) a live
  noneBeyond : live.NoneBeyond t n

theorem noneBeyond_succ {n : Nat} :
    live.NoneBeyond (b :: t) (n + 1) ↔ (live.next b).NoneBeyond t n := by
  constructor
  · intro beyond m longer inside c
    rw [first_next]
    exact beyond (m + 1) (Nat.succ_lt_succ longer) (Nat.succ_le_succ inside) c
  · intro beyond m longer inside c
    cases m with
    | zero => exact absurd longer (Nat.not_lt_zero _)
    | succ m =>
        rw [List.take_succ_cons, ← first_next]
        exact beyond m (Nat.lt_of_succ_lt_succ longer) (Nat.le_of_succ_le_succ inside) c

theorem noneBeyond_zero : live.NoneBeyond (b :: t) 0 ↔
    (∀ c, ¬ First [] c (live.next b)) ∧ (live.next b).NoneBeyond t 0 := by
  rw [← noneBeyond_succ]
  constructor
  · intro beyond
    refine ⟨fun c => ?_, fun m longer => beyond m (Nat.zero_lt_of_lt longer)⟩
    rw [first_next]
    exact beyond 1 Nat.one_pos (Nat.succ_le_succ (Nat.zero_le _)) c
  · rintro ⟨now, later⟩ m positive inside c
    by_cases single : m = 1
    · rw [single, List.take_succ_cons, ← first_next]
      exact now c
    · exact later m (by omega) inside c

theorem isLongest_succ {n : Nat} :
    live.IsLongest (b :: t) (n + 1) a ↔ (live.next b).IsLongest t n a := by
  constructor
  · rintro ⟨inside, first, beyond⟩
    exact ⟨Nat.le_of_succ_le_succ inside, first_next.mpr first, noneBeyond_succ.mp beyond⟩
  · rintro ⟨inside, first, beyond⟩
    exact ⟨Nat.succ_le_succ inside, first_next.mp first, noneBeyond_succ.mpr beyond⟩

theorem isLongest_zero : live.IsLongest t 0 a ↔ First [] a live ∧ live.NoneBeyond t 0 :=
  ⟨fun longest => ⟨longest.first, longest.noneBeyond⟩,
    fun ⟨first, beyond⟩ => ⟨Nat.zero_le _, first, beyond⟩⟩

/-- The best match when a state is reached. -/
theorem best_accepted?_iff {best : Option (Nat × α)} {seen n : Nat} :
    (live.accepted?.map fun name => (seen, name)).or best = some (n, a) ↔
      (n = seen ∧ First [] a live) ∨ best = some (n, a) ∧ ∀ c, ¬ First [] c live := by
  cases accepted : live.accepted? with
  | some name =>
      have first := accepted?_eq_some_iff.mp accepted
      rw [← accepted?_eq_some_iff, accepted, Option.map_some, Option.some_or, Option.some_inj,
        Option.some_inj, Prod.mk.injEq]
      constructor
      · rintro ⟨rfl, rfl⟩
        exact Or.inl ⟨rfl, rfl⟩
      · rintro (⟨rfl, rfl⟩ | ⟨_, nothing⟩)
        · exact ⟨rfl, rfl⟩
        · exact absurd first (nothing name)
  | none =>
      have nothing : ∀ c, ¬ First [] c live := by
        intro c first
        rw [accepted?_eq_some_iff.mpr first] at accepted
        cases accepted
      simp only [Option.map_none, Option.none_or, nothing, and_false, not_false_eq_true,
        implies_true, and_true, false_or]

end Matching

theorem longestFrom_cons {α : Type} (live : Matching α) (best : Option (Nat × α)) (seen : Nat)
    (b : UInt8) (t : Text) :
    longestFrom live best seen (b :: t) =
      if (live.next b).isEmpty then ⟨best, seen + 1⟩
      else longestFrom (live.next b)
        (((live.next b).accepted?.map fun name => (seen + 1, name)).or best) (seen + 1) t := by
  rw [longestFrom]
  cases (live.next b).accepted? <;> rfl

/-- The best match is the longest one that is still to come, or else the one so far. -/
theorem best_longestFrom_iff {α : Type} (live : Matching α) (best : Option (Nat × α)) (seen : Nat)
    (t : Text) (n : Nat) (a : α) :
    (longestFrom live best seen t).best = some (n, a) ↔
      (∃ k, n = seen + k ∧ 0 < k ∧ live.IsLongest t k a) ∨
        best = some (n, a) ∧ live.NoneBeyond t 0 := by
  -- A match of one byte is a match of no bytes in the state behind it, so the two sides differ only
  -- in whether the next state counts as what is still to come or as the best match so far.
  induction t generalizing live best seen with
  | nil =>
      have beyond : live.NoneBeyond [] 0 := fun m positive inside =>
        absurd inside (Nat.not_le.mpr positive)
      constructor
      · exact fun same => Or.inr ⟨same, beyond⟩
      · rintro (⟨k, _, positive, longest⟩ | ⟨same, _⟩)
        · exact absurd longest.inside (Nat.not_le.mpr positive)
        · exact same
  | cons b t ih =>
      have shifted : (∃ k, n = seen + k ∧ 0 < k ∧ live.IsLongest (b :: t) k a) ↔
          ∃ k, n = seen + 1 + k ∧ (live.next b).IsLongest t k a := by
        constructor
        · rintro ⟨k, rfl, positive, longest⟩
          obtain ⟨k, rfl⟩ := Nat.exists_eq_add_of_le' positive
          exact ⟨k, by omega, Matching.isLongest_succ.mp longest⟩
        · rintro ⟨k, rfl, longest⟩
          exact ⟨k + 1, by omega, k.succ_pos, Matching.isLongest_succ.mpr longest⟩
      rw [shifted, Matching.noneBeyond_zero, longestFrom_cons]
      by_cases stuck : (live.next b).isEmpty = true
      · rw [if_pos stuck, List.isEmpty_iff.mp stuck]
        constructor
        · exact fun same => Or.inr ⟨same, fun _ => Matching.not_first_nil,
            fun _ _ _ _ => Matching.not_first_nil⟩
        · rintro (⟨k, _, longest⟩ | ⟨same, _⟩)
          · exact absurd longest.first Matching.not_first_nil
          · exact same
      · rw [if_neg stuck, ih, Matching.best_accepted?_iff]
        constructor
        · rintro (⟨k, same, _, longest⟩ | ⟨⟨same, first⟩ | ⟨same, nothing⟩, beyond⟩)
          · exact Or.inl ⟨k, same, longest⟩
          · exact Or.inl ⟨0, same, Matching.isLongest_zero.mpr ⟨first, beyond⟩⟩
          · exact Or.inr ⟨same, nothing, beyond⟩
        · rintro (⟨k, same, longest⟩ | ⟨same, nothing, beyond⟩)
          · by_cases now : k = 0
            · subst now
              obtain ⟨first, beyond⟩ := Matching.isLongest_zero.mp longest
              exact Or.inr ⟨Or.inl ⟨same, first⟩, beyond⟩
            · exact Or.inl ⟨k, same, Nat.pos_of_ne_zero now, longest⟩
          · exact Or.inr ⟨Or.inr ⟨same, nothing⟩, beyond⟩

/-- The longest match, of at least one byte, at the front of `t` has `n` bytes, and `a` is the first
of the patterns that match them. -/
structure IsLongest {α : Type} (patterns : List (α × Regex)) (t : Text) (n : Nat) (a : α) :
    Prop where
  positive : 0 < n
  inside : n ≤ t.length
  first : ∃ front r back, patterns = front ++ (a, r) :: back ∧ Matches r (t.take n) ∧
    ∀ x ∈ front, ¬ Matches x.2 (t.take n)
  longest : ∀ m, n < m → m ≤ t.length → ∀ x ∈ patterns, ¬ Matches x.2 (t.take m)

theorem first_iff {α : Type} (patterns : List (α × Regex)) (t : Text) (a : α) :
    Matching.First t a (patterns.map fun (name, r) => (name, [r])) ↔
      ∃ front r back, patterns = front ++ (a, r) :: back ∧ Matches r t ∧
        ∀ x ∈ front, ¬ Matches x.2 t := by
  induction patterns with
  | nil =>
      refine iff_of_false Matching.not_first_nil ?_
      rintro ⟨front, r, back, split, _⟩
      exact List.append_ne_nil_of_right_ne_nil _ (List.cons_ne_nil _ _) split.symm
  | cons x patterns ih =>
      obtain ⟨name, r⟩ := x
      rw [List.map_cons]
      by_cases found : Matches r t
      · rw [Matching.first_cons_of_anyMatches (anyMatches_singleton.mpr found)]
        constructor
        · rintro rfl
          exact ⟨[], r, patterns, rfl, found, fun _ member => absurd member List.not_mem_nil⟩
        · rintro ⟨front, r', back, split, _, others⟩
          cases front with
          | nil => exact congrArg Prod.fst (List.cons.inj split).1
          | cons y front =>
              obtain ⟨rfl, -⟩ := List.cons.inj split
              exact absurd found (others _ List.mem_cons_self)
      · rw [Matching.first_cons_of_not (mt anyMatches_singleton.mp found), ih]
        constructor
        · rintro ⟨front, r', back, rfl, here, others⟩
          exact ⟨(name, r) :: front, r', back, rfl, here, List.forall_mem_cons.mpr ⟨found, others⟩⟩
        · rintro ⟨front, r', back, split, here, others⟩
          cases front with
          | nil =>
              obtain ⟨same, -⟩ := List.cons.inj split
              obtain ⟨rfl, rfl⟩ := Prod.mk.inj same
              exact absurd here found
          | cons y front =>
              obtain ⟨rfl, rfl⟩ := List.cons.inj split
              exact ⟨front, r', back, rfl, here, (List.forall_mem_cons.mp others).2⟩

theorem forall_not_first_iff {α : Type} (patterns : List (α × Regex)) (t : Text) :
    (∀ c, ¬ Matching.First t c (patterns.map fun (name, r) => (name, [r]))) ↔
      ∀ x ∈ patterns, ¬ Matches x.2 t := by
  rw [Matching.forall_not_first_iff, List.forall_mem_map]
  simp only [anyMatches_singleton]

/-- The longest match is found, and the first pattern for it. -/
theorem best_longest_iff {α : Type} (patterns : List (α × Regex)) (t : Text) (n : Nat) (a : α) :
    (longest patterns t).best = some (n, a) ↔ IsLongest patterns t n a := by
  rw [longest, best_longestFrom_iff]
  simp only [Nat.zero_add, exists_eq_left', reduceCtorEq, false_and, or_false]
  constructor
  · rintro ⟨positive, inside, first, beyond⟩
    refine ⟨positive, inside, (first_iff patterns _ a).mp first, fun m longer fits => ?_⟩
    exact (forall_not_first_iff patterns _).mp (beyond m longer fits)
  · rintro ⟨positive, inside, first, longest⟩
    refine ⟨positive, inside, (first_iff patterns _ a).mpr first, fun m longer fits => ?_⟩
    exact (forall_not_first_iff patterns _).mpr (longest m longer fits)

end Regex

end FrontEnd
