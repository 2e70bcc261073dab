import FrontEnd.Diagnostics.Store
import Mathlib.Data.List.GetD
import Mathlib.Data.List.Induction
import Mathlib.Logic.Function.Basic

/-!
# When lists behave like values

Variables that show the same block of memory are not independent: a list that grows in place may
write over entries of a longer list.  The number of entries in a list is always what it would be if
each variable had a list of its own.  The entries are so as long as no operation writes something
else over an entry that another variable shows, and no longer (`Store.contents_iff_undisturbed`).
-/

namespace FrontEnd

namespace Diagnostics

/-- An operation on the lists of variables. -/
inductive Operation where
  | add (name : String) (d : Diagnostic)
  | append (name source : String)
  | copy (name source : String)
  | reset (name : String)
  deriving DecidableEq, Repr

namespace Operation

def perform (s : Store) : Operation → Store
  | .add name d => s.add name d
  | .append name source => s.append name source
  | .copy name source => s.copy name source
  | .reset name => s.reset name

/-- What an operation does if each variable has a list of its own. -/
def onValues (values : String → List Diagnostic) : Operation → String → List Diagnostic
  | .add name d => Function.update values name (values name ++ [d])
  | .append name source => Function.update values name (values name ++ values source)
  | .copy name source => Function.update values name (values source)
  | .reset name => Function.update values name []

/-- The list that an operation makes longer, and the entries it writes behind it. -/
def written? (s : Store) : Operation → Option (String × List Diagnostic)
  | .add name d => some (name, [d])
  | .append name source => some (name, s.contents source)
  | _ => none

end Operation

/-- The lists after some operations, if each variable has a list of its own. -/
def valuesAfter (ops : List Operation) : String → List Diagnostic :=
  ops.foldl Operation.onValues fun _ => []

namespace Store

/-- The store after some operations. -/
def after (ops : List Operation) : Store := ops.foldl Operation.perform empty

/-- There is room for `entries` in the block of `name`, behind its list, and one of them is written
over a different one in the list of `other`. -/
def Overwrites (s : Store) (name : String) (entries : List Diagnostic) (other : String) : Prop :=
  (s.window name).length + entries.length ≤ (s.window name).capacity ∧
    (s.window other).block = (s.window name).block ∧
    ∃ i d e, entries[i]? = some d ∧
      (s.contents other)[(s.window name).length + i]? = some e ∧ d ≠ e

/-- The operation changes an entry in the list of a variable that it is not about. -/
def Disturbs (s : Store) (op : Operation) : Prop :=
  ∃ name entries other, op.written? s = some (name, entries) ∧ other ≠ name ∧
    s.Overwrites name entries other

/-! ## Windows -/

/-- The window shows entries that have been written. -/
structure Fits (s : Store) (w : Window) : Prop where
  block : w.block < s.blocks.length
  length : w.length ≤ (s.blocks.getD w.block []).length

/-- All variables show entries that have been written. -/
def Sound (s : Store) : Prop := ∀ name, s.Fits (s.window name)

variable {s : Store} {w : Window} {name other : String}

theorem lookup_filter_ne (windows : List (String × Window)) (distinct : other ≠ name) :
    (windows.filter (·.1 != name)).lookup other = windows.lookup other := by
  induction windows with
  | nil => rfl
  | cons entry windows ih =>
      obtain ⟨known, w⟩ := entry
      by_cases same : known = name
      · subst same
        rw [List.filter_cons_of_neg (by simp), ih, List.lookup_cons, beq_false_of_ne distinct]
      · rw [List.filter_cons_of_pos (by simpa using same), List.lookup_cons, List.lookup_cons, ih]

theorem window_setWindow_self (s : Store) (name : String) (w : Window) :
    (s.setWindow name w).window name = w := by
  rw [window, setWindow, List.lookup_cons_self]
  rfl

theorem window_setWindow_of_ne (s : Store) (w : Window) (distinct : other ≠ name) :
    (s.setWindow name w).window other = s.window other := by
  rw [window, setWindow, List.lookup_cons, beq_false_of_ne distinct]
  exact congrArg (·.getD ⟨0, 0, 0⟩) (lookup_filter_ne s.windows distinct)

theorem contents_setWindow_self (s : Store) (name : String) (w : Window) :
    (s.setWindow name w).contents name = s.view w := by
  rw [contents, window_setWindow_self]
  rfl

theorem contents_setWindow_of_ne (s : Store) (w : Window) (distinct : other ≠ name) :
    (s.setWindow name w).contents other = s.contents other := by
  rw [contents, window_setWindow_of_ne s w distinct]
  rfl

theorem Fits.length_view (fits : s.Fits w) : (s.view w).length = w.length := by
  rw [view, List.length_take, Nat.min_eq_left fits.length]

theorem Sound.length_contents (sound : s.Sound) (name : String) :
    (s.contents name).length = (s.window name).length :=
  (sound name).length_view

theorem Sound.setWindow (sound : s.Sound) (fits : s.Fits w) : (s.setWindow name w).Sound := by
  intro other
  by_cases same : other = name
  · subst same
    rw [window_setWindow_self]
    exact ⟨fits.block, fits.length⟩
  · rw [window_setWindow_of_ne s w same]
    exact ⟨(sound other).block, (sound other).length⟩

/-! ## Writing behind a list -/

section Overwrite

variable {block entries : List Diagnostic} {position : Nat}

theorem getElem?_overwrite (inside : position ≤ block.length) (j : Nat) :
    (overwrite block position entries)[j]? =
      if j < position ∨ position + entries.length ≤ j then block[j]?
      else entries[j - position]? := by
  have front : (block.take position).length = position := by
    rw [List.length_take, Nat.min_eq_left inside]
  rw [overwrite, List.append_assoc]
  by_cases before : j < position
  · rw [if_pos (Or.inl before), List.getElem?_append_left (front.symm ▸ before),
      List.getElem?_take_of_lt before]
  · rw [List.getElem?_append_right (by omega), front]
    by_cases behind : position + entries.length ≤ j
    · rw [if_pos (Or.inr behind), List.getElem?_append_right (by omega), List.getElem?_drop]
      congr 1
      omega
    · rw [if_neg (by omega), List.getElem?_append_left (by omega)]

theorem length_overwrite (inside : position ≤ block.length) :
    (overwrite block position entries).length = max block.length (position + entries.length) := by
  rw [overwrite, List.length_append, List.length_append, List.length_take, List.length_drop]
  omega

/-- The first `n` entries of a block stay the same, unless a different one is written over one of
them. -/
theorem take_overwrite_eq_iff {n : Nat} (inside : position ≤ block.length)
    (shown : n ≤ block.length) :
    (overwrite block position entries).take n = block.take n ↔
      ¬ ∃ i d e, entries[i]? = some d ∧ (block.take n)[position + i]? = some e ∧ d ≠ e := by
  constructor
  · rintro same ⟨i, d, e, written, old, differ⟩
    obtain ⟨present, -⟩ := List.getElem?_eq_some_iff.mp written
    obtain ⟨within, -⟩ := List.getElem?_eq_some_iff.mp old
    rw [List.length_take] at within
    rw [← same, List.getElem?_take_of_lt (by omega), getElem?_overwrite inside,
      if_neg (by omega), Nat.add_sub_cancel_left, written] at old
    exact differ (Option.some.inj old)
  · intro untouched
    apply List.ext_getElem?
    intro j
    rw [List.getElem?_take, getElem?_overwrite inside, List.getElem?_take]
    by_cases within : j < n
    · rw [if_pos within, if_pos within]
      split
      · rfl
      · rename_i between
        obtain ⟨i, rfl⟩ := Nat.exists_eq_add_of_le (Nat.not_lt.mp (mt Or.inl between))
        obtain ⟨d, written⟩ : ∃ d, entries[i]? = some d :=
          ⟨_, List.getElem?_eq_getElem (by omega)⟩
        obtain ⟨e, old⟩ : ∃ e, block[position + i]? = some e :=
          ⟨_, List.getElem?_eq_getElem (by omega)⟩
        rw [Nat.add_sub_cancel_left, written, old]
        by_contra differ
        exact untouched ⟨i, d, e, written, (List.getElem?_take_of_lt within).trans old,
          fun same => differ (congrArg some same)⟩
    · rw [if_neg within, if_neg within]

end Overwrite

/-- The store after entries were written behind those of a window, into its block. -/
def overwritten (s : Store) (w : Window) (entries : List Diagnostic) : Store :=
  ⟨s.blocks.set w.block (overwrite (s.blocks.getD w.block []) w.length entries), s.windows⟩

/-- The store with a new block. -/
def allocated (s : Store) (block : List Diagnostic) : Store :=
  ⟨s.blocks ++ [block], s.windows⟩

variable {v : Window} {entries : List Diagnostic}

theorem extend_of_room
    (room : (s.window name).length + entries.length ≤ (s.window name).capacity) :
    s.extend name entries = (s.overwritten (s.window name) entries).setWindow name
      { s.window name with length := (s.window name).length + entries.length } :=
  if_pos room

theorem extend_of_full
    (full : ¬ (s.window name).length + entries.length ≤ (s.window name).capacity) :
    s.extend name entries = (s.allocated (s.view (s.window name) ++ entries)).setWindow name
      ⟨s.blocks.length, (s.window name).length + entries.length,
        grownCapacity ((s.window name).length + entries.length) (s.window name).capacity⟩ :=
  if_neg full

theorem getD_overwritten_self (fits : s.Fits w) :
    (s.overwritten w entries).blocks.getD w.block [] =
      overwrite (s.blocks.getD w.block []) w.length entries := by
  change (List.set _ _ _).getD _ _ = _
  rw [List.getD_eq_getElem?_getD, List.getElem?_set_self fits.block, Option.getD_some]

theorem getD_overwritten_of_ne {b : Nat} (apart : b ≠ w.block) :
    (s.overwritten w entries).blocks.getD b [] = s.blocks.getD b [] := by
  change (List.set _ _ _).getD _ _ = _
  rw [List.getD_eq_getElem?_getD, List.getElem?_set_ne (Ne.symm apart),
    ← List.getD_eq_getElem?_getD]

theorem Fits.overwritten (fits : s.Fits v) (ofWindow : s.Fits w) :
    (s.overwritten w entries).Fits v := by
  refine ⟨?_, ?_⟩
  · change v.block < (List.set _ _ _).length
    rw [List.length_set]
    exact fits.block
  · by_cases shared : v.block = w.block
    · rw [shared, getD_overwritten_self ofWindow, length_overwrite ofWindow.length]
      exact Nat.le_trans (shared ▸ fits.length) (Nat.le_max_left _ _)
    · rw [getD_overwritten_of_ne shared]
      exact fits.length

theorem Fits.extended (fits : s.Fits w) :
    (s.overwritten w entries).Fits { w with length := w.length + entries.length } := by
  refine ⟨(fits.overwritten fits).block, ?_⟩
  change _ ≤ ((s.overwritten w entries).blocks.getD w.block []).length
  rw [getD_overwritten_self fits, length_overwrite fits.length]
  exact Nat.le_max_right _ _

theorem view_extended (fits : s.Fits w) :
    (s.overwritten w entries).view { w with length := w.length + entries.length } =
      s.view w ++ entries := by
  change List.take _ ((s.overwritten w entries).blocks.getD w.block []) = _
  have front : ((s.blocks.getD w.block []).take w.length ++ entries).length =
      w.length + entries.length := by
    rw [List.length_append, List.length_take, Nat.min_eq_left fits.length]
  rw [getD_overwritten_self fits, overwrite, List.take_left' front]
  rfl

/-- What a window shows stays the same, unless a different entry is written over one of its own. -/
theorem view_overwritten_iff (fits : s.Fits v) (ofWindow : s.Fits w) :
    (s.overwritten w entries).view v = s.view v ↔
      ¬ (v.block = w.block ∧ ∃ i d e, entries[i]? = some d ∧
        (s.view v)[w.length + i]? = some e ∧ d ≠ e) := by
  by_cases shared : v.block = w.block
  · rw [view, view, shared, getD_overwritten_self ofWindow,
      take_overwrite_eq_iff ofWindow.length (shared ▸ fits.length)]
    exact not_congr (and_iff_right rfl).symm
  · rw [view, getD_overwritten_of_ne shared]
    exact iff_of_true rfl fun disturbed => shared disturbed.1

theorem getD_allocated_self (s : Store) (block : List Diagnostic) :
    (s.allocated block).blocks.getD s.blocks.length [] = block := by
  rw [allocated, List.getD_append_right _ _ _ _ (Nat.le_refl _), Nat.sub_self]
  rfl

theorem view_allocated (fits : s.Fits v) (block : List Diagnostic) :
    (s.allocated block).view v = s.view v := by
  rw [view, allocated, List.getD_append _ _ _ _ fits.block]
  rfl

theorem Fits.allocated (fits : s.Fits v) (block : List Diagnostic) :
    (s.allocated block).Fits v := by
  refine ⟨?_, ?_⟩
  · rw [Store.allocated, List.length_append]
    exact Nat.lt_add_right _ fits.block
  · rw [Store.allocated, List.getD_append _ _ _ _ fits.block]
    exact fits.length

theorem Sound.extend (sound : s.Sound) (name : String) (entries : List Diagnostic) :
    (s.extend name entries).Sound := by
  have fits := sound name
  by_cases room : (s.window name).length + entries.length ≤ (s.window name).capacity
  · have kept : (s.overwritten (s.window name) entries).Sound :=
      fun other => (sound other).overwritten fits
    rw [extend_of_room room]
    exact kept.setWindow fits.extended
  · have kept : (s.allocated (s.view (s.window name) ++ entries)).Sound :=
      fun other => (sound other).allocated _
    rw [extend_of_full room]
    refine kept.setWindow ⟨?_, ?_⟩
    · rw [allocated, List.length_append]
      exact Nat.lt_succ_self _
    · apply Nat.le_of_eq
      rw [getD_allocated_self, List.length_append, fits.length_view]

theorem contents_extend_self (sound : s.Sound) :
    (s.extend name entries).contents name = s.contents name ++ entries := by
  by_cases room : (s.window name).length + entries.length ≤ (s.window name).capacity
  · rw [extend_of_room room, contents_setWindow_self, view_extended (sound name)]
    rfl
  · have length : (s.view (s.window name) ++ entries).length =
        (s.window name).length + entries.length := by
      rw [List.length_append, (sound name).length_view]
    rw [extend_of_full room, contents_setWindow_self, view, getD_allocated_self, ← length]
    exact List.take_length

/-- Another variable sees the entries that are written if they replace different ones of its own. -/
theorem contents_extend_of_ne_iff (sound : s.Sound) (distinct : other ≠ name) :
    (s.extend name entries).contents other = s.contents other ↔
      ¬ s.Overwrites name entries other := by
  unfold Overwrites
  by_cases room : (s.window name).length + entries.length ≤ (s.window name).capacity
  · rw [extend_of_room room, contents_setWindow_of_ne _ _ distinct, and_iff_right room]
    exact view_overwritten_iff (sound other) (sound name)
  · rw [extend_of_full room, contents_setWindow_of_ne _ _ distinct]
    exact iff_of_true (view_allocated (sound other) _) fun disturbed => room disturbed.1

/-! ## One operation, and any number of them -/

theorem contents_setWindow (s : Store) (name : String) (w : Window) :
    (s.setWindow name w).contents = Function.update s.contents name (s.view w) := by
  funext other
  by_cases same : other = name
  · subst same
    rw [contents_setWindow_self, Function.update_self]
  · rw [contents_setWindow_of_ne s w same, Function.update_of_ne same]

/-- Writing behind a list changes this list only, unless it overwrites entries of another one. -/
theorem contents_extend_iff (sound : s.Sound) :
    (s.extend name entries).contents =
        Function.update s.contents name (s.contents name ++ entries) ↔
      ¬ ∃ other, other ≠ name ∧ s.Overwrites name entries other := by
  constructor
  · rintro same ⟨other, distinct, overwrites⟩
    refine (contents_extend_of_ne_iff sound distinct).mp ?_ overwrites
    rw [same, Function.update_of_ne distinct]
  · intro undisturbed
    funext other
    by_cases same : other = name
    · subst same
      rw [contents_extend_self sound, Function.update_self]
    · rw [Function.update_of_ne same]
      exact (contents_extend_of_ne_iff sound same).mpr fun overwrites =>
        undisturbed ⟨other, same, overwrites⟩

theorem Sound.perform (sound : s.Sound) (op : Operation) : (op.perform s).Sound := by
  cases op with
  | add name d => exact sound.extend name [d]
  | append name source => exact sound.extend name (s.contents source)
  | copy name source => exact sound.setWindow (sound source)
  | reset name => exact sound.setWindow ⟨Nat.zero_lt_of_lt (sound name).block, Nat.zero_le _⟩

/-- An operation on values and on a store that agree: they agree again, unless it disturbs another
list. -/
theorem contents_perform_iff (sound : s.Sound) (op : Operation) :
    (op.perform s).contents = op.onValues s.contents ↔ ¬ s.Disturbs op := by
  -- Only what is written can disturb a list.
  have extends_iff {name : String} {entries : List Diagnostic}
      (written : op.written? s = some (name, entries)) :
      s.Disturbs op ↔ ∃ other, other ≠ name ∧ s.Overwrites name entries other := by
    constructor
    · rintro ⟨known, list, other, writes, disturbed⟩
      cases written.symm.trans writes
      exact ⟨other, disturbed⟩
    · rintro ⟨other, disturbed⟩
      exact ⟨name, entries, other, written, disturbed⟩
  cases op with
  | add name d => exact (contents_extend_iff sound).trans (not_congr (extends_iff rfl).symm)
  | append name source => exact (contents_extend_iff sound).trans (not_congr (extends_iff rfl).symm)
  | copy name source =>
      refine iff_of_true (contents_setWindow s name (s.window source)) ?_
      rintro ⟨_, _, _, written, -⟩
      cases written
  | reset name =>
      refine iff_of_true (contents_setWindow s name ⟨0, 0, 0⟩) ?_
      rintro ⟨_, _, _, written, -⟩
      cases written

theorem length_contents_extend (sound : s.Sound) (other : String) :
    ((s.extend name entries).contents other).length =
      (Function.update s.contents name (s.contents name ++ entries) other).length := by
  by_cases same : other = name
  · subst same
    rw [contents_extend_self sound, Function.update_self]
  · have window : ((s.extend name entries).window other) = s.window other := by
      by_cases room : (s.window name).length + entries.length ≤ (s.window name).capacity
      · rw [extend_of_room room, window_setWindow_of_ne _ _ same]
        rfl
      · rw [extend_of_full room, window_setWindow_of_ne _ _ same]
        rfl
    rw [(sound.extend name entries).length_contents, window, Function.update_of_ne same,
      sound.length_contents]

theorem length_update_eq {f g : String → List Diagnostic} {k l : List Diagnostic}
    (agree : ∀ other, (f other).length = (g other).length) (length : k.length = l.length)
    (other : String) :
    (Function.update f name k other).length = (Function.update g name l other).length := by
  by_cases same : other = name
  · subst same
    rw [Function.update_self, Function.update_self, length]
  · rw [Function.update_of_ne same, Function.update_of_ne same, agree]

/-- If lists have the same lengths in a store and as values, they still have them after an
operation. -/
theorem length_contents_perform {values : String → List Diagnostic} (sound : s.Sound)
    (agree : ∀ other, (s.contents other).length = (values other).length) (op : Operation)
    (other : String) :
    ((op.perform s).contents other).length = (op.onValues values other).length := by
  cases op with
  | add name d =>
      refine (length_contents_extend sound other).trans (length_update_eq agree ?_ other)
      rw [List.length_append, List.length_append, agree]
  | append name source =>
      refine (length_contents_extend sound other).trans (length_update_eq agree ?_ other)
      rw [List.length_append, List.length_append, agree, agree]
  | copy name source =>
      change ((s.setWindow name (s.window source)).contents other).length = _
      rw [contents_setWindow]
      exact length_update_eq agree (agree source) other
  | reset name =>
      change ((s.setWindow name ⟨0, 0, 0⟩).contents other).length = _
      rw [contents_setWindow]
      exact length_update_eq agree rfl other

theorem after_concat (ops : List Operation) (op : Operation) :
    after (ops ++ [op]) = op.perform (after ops) := by
  rw [after, List.foldl_append]
  rfl

theorem valuesAfter_concat (ops : List Operation) (op : Operation) :
    valuesAfter (ops ++ [op]) = op.onValues (valuesAfter ops) := by
  rw [valuesAfter, List.foldl_append]
  rfl

theorem sound_after (ops : List Operation) : (after ops).Sound := by
  induction ops using List.reverseRecOn with
  | nil => exact fun _ => ⟨Nat.one_pos, Nat.le_refl _⟩
  | append_singleton ops op ih =>
      rw [after_concat]
      exact ih.perform op

theorem length_contents_after (ops : List Operation) (name : String) :
    ((after ops).contents name).length = (valuesAfter ops name).length := by
  induction ops using List.reverseRecOn generalizing name with
  | nil => rfl
  | append_singleton ops op ih =>
      rw [after_concat, valuesAfter_concat]
      exact length_contents_perform (sound_after ops) ih op name

/-- If store and values agree before an operation, they agree after it unless it disturbs a list. -/
theorem contents_concat_iff {ops : List Operation} (agree : (after ops).contents = valuesAfter ops)
    (op : Operation) :
    (after (ops ++ [op])).contents = valuesAfter (ops ++ [op]) ↔ ¬ (after ops).Disturbs op := by
  rw [after_concat, valuesAfter_concat, ← agree]
  exact contents_perform_iff (sound_after ops) op

theorem contents_after {ops : List Operation}
    (undisturbed : ∀ before op, before ++ [op] <+: ops → ¬ (after before).Disturbs op) :
    (after ops).contents = valuesAfter ops := by
  induction ops using List.reverseRecOn with
  | nil => rfl
  | append_singleton ops op ih =>
      have agree := ih fun before next within =>
        undisturbed before next (within.trans (List.prefix_append ops [op]))
      exact (contents_concat_iff agree op).mpr (undisturbed ops op (List.prefix_refl _))

/-- Every list has as many entries as if each variable had a list of its own.  The entries are the
same all the time if and only if no operation disturbs a list that it is not about. -/
theorem contents_iff_undisturbed (ops : List Operation) :
    (∀ name, ((after ops).contents name).length = (valuesAfter ops name).length) ∧
      ((∀ before, before <+: ops → (after before).contents = valuesAfter before) ↔
        ∀ before op, before ++ [op] <+: ops → ¬ (after before).Disturbs op) := by
  refine ⟨length_contents_after ops, fun agree before op within => ?_,
    fun undisturbed before within => contents_after fun earlier op further =>
      undisturbed earlier op (further.trans within)⟩
  have earlier := agree before ((List.prefix_append before [op]).trans within)
  exact (contents_concat_iff earlier op).mp (agree (before ++ [op]) within)

/-- Three entries in the list of a, a copy of it for b, and one more entry for each. -/
def crossedAdditions : List Operation :=
  [.add "a" ⟨⟨1, 1⟩, Text.ofString "x"⟩, .add "a" ⟨⟨1, 2⟩, Text.ofString "y"⟩,
    .add "a" ⟨⟨1, 3⟩, Text.ofString "z"⟩, .copy "b" "a",
    .add "a" ⟨⟨1, 4⟩, Text.ofString "u"⟩, .add "b" ⟨⟨1, 5⟩, Text.ofString "v"⟩]

theorem contents_ne_valuesAfter :
    ¬ ∀ ops name, (after ops).contents name = valuesAfter ops name := by
  intro independent
  have shown : ((after crossedAdditions).contents "a")[3]? =
      some ⟨⟨1, 5⟩, Text.ofString "v"⟩ := rfl
  have value : (valuesAfter crossedAdditions "a")[3]? =
      some ⟨⟨1, 4⟩, Text.ofString "u"⟩ := rfl
  rw [independent, value] at shown
  cases shown

end Store

end Diagnostics

end FrontEnd
