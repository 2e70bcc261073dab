import FrontEnd.Proofs.Text.Characters

/-!
# Stretches of characters

`Stretch go u v` says that the text `u` is made of whole characters in front of `v`, at each of
which the condition `go` holds of what lies ahead; `Sweep go u v` says moreover that `go` fails
behind them, so that `u` is what a cursor passes over while `go` holds (`exists_sweep`).

A stretch keeps its characters if the text is cut behind it (`Stretch.cut`), or if more text
comes behind that does not go on with a continuation byte (`Stretch.extend`).
-/

namespace FrontEnd

namespace Text

/-- `u` is made of whole characters in front of `v`, and `go` holds at each of them. -/
inductive Stretch (go : Text → Bool) : Text → Text → Prop where
  | nil (v : Text) : Stretch go [] v
  | cons {c u v : Text} {r : Rune} (first : rune? (c ++ (u ++ v)) = some r)
      (width : c.length = r.width) (holds : go (c ++ (u ++ v)) = true)
      (rest : Stretch go u v) : Stretch go (c ++ u) v

/-- `u` is made of whole characters in front of `v`. -/
abbrev Whole : Text → Text → Prop := Stretch fun _ => true

/-- `u` is what lies in front of the first place of `u ++ v` at which `go` fails. -/
structure Sweep (go : Text → Bool) (u v : Text) : Prop where
  stretch : Stretch go u v
  stops : v = [] ∨ go v = false

variable {go : Text → Bool} {p : Char → Bool} {c t u v w : Text} {r : Rune}

/-- Every text that is not empty splits behind its first character. -/
theorem exists_first (h : rune? t = some r) :
    ∃ c v, t = c ++ v ∧ c.length = r.width ∧ v.length < t.length := by
  obtain ⟨positive, fits⟩ := width_bounds_of_rune? h
  refine ⟨t.take r.width, t.drop r.width, (List.take_append_drop _ _).symm, ?_, ?_⟩
  · rw [List.length_take, Nat.min_eq_left fits]
  · rw [List.length_drop]
    omega

theorem exists_rune? (present : t ≠ []) : ∃ r, rune? t = some r := by
  rw [← Option.ne_none_iff_exists', Ne, rune?_eq_none]
  exact present

theorem ne_nil_of_width (first : rune? t = some r) (width : c.length = r.width) : c ≠ [] := by
  have positive := width_pos_of_rune? first
  rintro rfl
  rw [List.length_nil] at width
  omega

/-- A whole character stays the same if the text is cut behind it. -/
theorem rune?_front (first : rune? (c ++ (u ++ v)) = some r) (width : c.length = r.width) :
    rune? (c ++ u) = some r := by
  rw [← List.append_assoc] at first
  apply rune?_of_append first
  rw [List.length_append, width]
  exact Nat.le_add_right _ _

theorem chars_first (first : rune? (c ++ v) = some r) (width : c.length = r.width) :
    chars (c ++ v) = r.char :: chars v := by
  rw [chars_of_rune? first, ← width, List.drop_left]

theorem chars_single (first : rune? (c ++ v) = some r) (width : c.length = r.width) :
    chars c = [r.char] := by
  have alone : rune? (c ++ []) = some r := rune?_front first width
  have chars := chars_first alone width
  rwa [List.append_nil, chars_nil] at chars

/-! ## Sweeps -/

theorem exists_sweep (go : Text → Bool) (t : Text) : ∃ u v, t = u ++ v ∧ Sweep go u v := by
  induction size : t.length using Nat.strongRecOn generalizing t with
  | ind size ih =>
      by_cases present : t = []
      · exact ⟨[], t, rfl, .nil t, Or.inl present⟩
      by_cases holds : go t = true
      · obtain ⟨r, first⟩ := exists_rune? present
        obtain ⟨c, rest, rfl, width, shorter⟩ := exists_first first
        obtain ⟨u, v, rfl, sweep⟩ := ih _ (size ▸ shorter) rest rfl
        refine ⟨c ++ u, v, (List.append_assoc c u v).symm, ?_, sweep.stops⟩
        exact .cons first width holds sweep.stretch
      · exact ⟨[], t, rfl, .nil t, Or.inr (Bool.not_eq_true _ ▸ holds)⟩

/-- A sweep is empty only where its condition fails. -/
theorem Sweep.ne_nil (sweep : Sweep go u v) (holds : go (u ++ v) = true) (present : u ++ v ≠ []) :
    u ≠ [] := by
  rintro rfl
  rcases sweep.stops with rfl | stops
  · exact present rfl
  · rw [List.nil_append, stops] at holds
    cases holds

namespace Stretch

theorem single (first : rune? (c ++ v) = some r) (width : c.length = r.width)
    (holds : go (c ++ v) = true) : Stretch go c v := by
  have stretch : Stretch go (c ++ []) v := .cons first width holds (.nil v)
  rwa [List.append_nil] at stretch

theorem ascii {b : UInt8} (low : b < 0x80) (holds : go (b :: (u ++ v)) = true)
    (rest : Stretch go u v) : Stretch go (b :: u) v := by
  have first : rune? ([b] ++ (u ++ v)) = some ⟨Char.ofNat b.toNat, 1⟩ := rune?_ascii low (u ++ v)
  exact .cons first rfl holds rest

theorem append (front : Stretch go u (w ++ v)) (back : Stretch go w v) :
    Stretch go (u ++ w) v := by
  generalize behind : w ++ v = t at front
  induction front with
  | nil => exact back
  | cons first width holds _ ih =>
      subst behind
      rw [List.append_assoc]
      rw [← List.append_assoc _ w v] at first holds
      exact .cons first width holds (ih rfl)

theorem weaken {weaker : Text → Bool} (stretch : Stretch go u v)
    (implies : ∀ t, go t = true → weaker t = true) : Stretch weaker u v := by
  induction stretch with
  | nil v => exact .nil v
  | cons first width holds _ ih => exact .cons first width (implies _ holds) ih

theorem whole (stretch : Stretch go u v) : Whole u v :=
  stretch.weaken fun _ _ => rfl

/-- A stretch in front of less text. -/
theorem cut {narrower : Text → Bool} (stretch : Stretch go u (w ++ v))
    (shorter : ∀ t, rune? (t ++ v) = rune? t → go (t ++ v) = true → narrower t = true) :
    Stretch narrower u w := by
  generalize behind : w ++ v = t at stretch
  induction stretch with
  | nil => exact .nil w
  | @cons c u _ r first width holds _ ih =>
      subst behind
      have same : c ++ (u ++ (w ++ v)) = c ++ (u ++ w) ++ v := by
        rw [List.append_assoc, List.append_assoc]
      rw [same] at first holds
      rw [List.append_assoc] at first
      have firstToo := rune?_front first width
      rw [← List.append_assoc] at first
      exact .cons firstToo width (shorter _ (first.trans firstToo.symm) holds) (ih rfl)

/-- A stretch in front of more text. -/
theorem extend {wider : Text → Bool} (stretch : Stretch go u v)
    (ends : ∀ b ∈ w.head?, isContinuation b = false)
    (longer : ∀ t, t ≠ [] → rune? (t ++ w) = rune? t → go t = true → wider (t ++ w) = true) :
    Stretch wider u (v ++ w) := by
  induction stretch with
  | nil v => exact .nil (v ++ w)
  | @cons c u v r first width holds _ ih =>
      have present : c ++ (u ++ v) ≠ [] := by
        rw [Ne, ← rune?_eq_none, first]
        exact Option.some_ne_none r
      have same : c ++ (u ++ (v ++ w)) = c ++ (u ++ v) ++ w := by
        rw [List.append_assoc, List.append_assoc]
      have firstToo := rune?_append present ends
      refine .cons ?_ width ?_ ih
      · rw [same, firstToo, first]
      · rw [same]
        exact longer _ present firstToo holds

/-- The characters of a stretch are in the class that `go` asks for. -/
theorem forall_chars (stretch : Stretch go u v)
    (implies : ∀ t, go t = true → frontIs p t = true) : ∀ c ∈ u.chars, p c = true := by
  induction stretch with
  | nil => simp
  | @cons c u v r first width holds _ ih =>
      have inFront := implies _ holds
      rw [frontIs_of_rune? first] at inFront
      rw [chars_first (rune?_front first width) width]
      exact List.forall_mem_cons.mpr ⟨inFront, ih⟩

end Stretch

theorem Whole.cut (whole : Whole u (w ++ v)) : Whole u w :=
  Stretch.cut whole fun _ _ _ => rfl

theorem Whole.chars_append (whole : Whole u v) : chars (u ++ v) = chars u ++ chars v := by
  induction whole with
  | nil => rw [chars_nil, List.nil_append, List.nil_append]
  | @cons c u v r first width _ rest ih =>
      rw [List.append_assoc, chars_first first width, chars_first (rune?_front first width) width,
        ih, List.cons_append]

/-- In front of an ASCII byte, or of nothing, all characters are whole. -/
theorem whole_of_ends (u : Text) (ends : ∀ b ∈ v.head?, isContinuation b = false) :
    Whole u v := by
  induction size : u.length using Nat.strongRecOn generalizing u with
  | ind size ih =>
      by_cases present : u = []
      · subst present
        exact .nil v
      obtain ⟨r, first⟩ := exists_rune? present
      obtain ⟨c, rest, rfl, width, shorter⟩ := exists_first first
      refine .cons ?_ width rfl (ih _ (size ▸ shorter) rest rfl)
      rw [← List.append_assoc, rune?_append present ends, first]

/-- A stretch of characters of one class. -/
theorem stretch_frontIs_iff : Stretch (frontIs p) u v ↔ Whole u v ∧ ∀ c ∈ u.chars, p c = true := by
  constructor
  · intro stretch
    exact ⟨stretch.whole, stretch.forall_chars fun _ holds => holds⟩
  · rintro ⟨whole, inClass⟩
    induction whole with
    | nil v => exact .nil v
    | @cons c u v r first width _ rest ih =>
        rw [chars_first (rune?_front first width) width] at inClass
        obtain ⟨inFront, inClass⟩ := List.forall_mem_cons.mp inClass
        exact .cons first width ((frontIs_of_rune? first).trans inFront) (ih inClass)

/-! ## Where a class of characters ends -/

/-- A character that is no stray byte stays in front if the text goes on. -/
theorem frontIs_append (spelled : p Rune.replacement = false) (front : frontIs p t = true)
    (w : Text) : frontIs p (t ++ w) = true := by
  obtain ⟨r, first, holds⟩ := exists_rune?_of_frontIs front
  have present : t ≠ [] := by
    rintro rfl
    cases first
  rcases rune?_eq_or_stray present w with same | stray
  · rw [frontIs, ← same]
    exact front
  · rw [first] at stray
    cases stray
    exact absurd holds (Bool.eq_false_iff.mp spelled)

theorem frontIs_append_ascii {b : UInt8} (low : b < 0x80) (other : p (Char.ofNat b.toNat) = false)
    (t w : Text) : frontIs p (t ++ b :: w) = frontIs p t := by
  by_cases present : t = []
  · subst present
    rw [List.nil_append, frontIs_ascii low, other, frontIs_nil]
  · have ends : ∀ x ∈ (b :: w).head?, isContinuation x = false := by
      intro x member
      obtain rfl := Option.mem_some_iff.mp member
      exact not_isContinuation_of_lt low
    rw [frontIs, rune?_append present ends, frontIs]

theorem Sweep.frontIs_eq_false (sweep : Sweep (frontIs p) u v) : frontIs p v = false := by
  rcases sweep.stops with rfl | stops
  · rfl
  · exact stops

/-- A sweep over a class that has the first character of the text takes some bytes. -/
theorem Sweep.ne_nil_of_frontIs {q : Char → Bool} (sweep : Sweep (frontIs p) u v)
    (front : frontIs q (u ++ v) = true) (implies : ∀ c, q c = true → p c = true) : u ≠ [] := by
  obtain ⟨r, first, holds⟩ := exists_rune?_of_frontIs front
  refine sweep.ne_nil ((frontIs_of_rune? first).trans (implies _ holds)) ?_
  intro none
  rw [none] at first
  cases first

/-- A stretch of ASCII characters is made of their bytes. -/
theorem stretch_ascii_iff (low : ∀ c, p c = true → c.toNat < 0x80) :
    Stretch (frontIs p) u v ↔ ∀ b ∈ u, b < 0x80 ∧ p (Char.ofNat b.toNat) = true := by
  constructor
  · intro stretch
    induction stretch with
    | nil => exact fun b member => absurd member List.not_mem_nil
    | @cons c u v r first width holds _ ih =>
        obtain ⟨b, rest, split, ascii, inFront⟩ := exists_byte_of_frontIs low holds
        rw [split, rune?_ascii ascii] at first
        cases first
        obtain ⟨x, rfl⟩ := List.length_eq_one_iff.mp width
        obtain rfl : x = b := (List.cons.inj split).1
        exact List.forall_mem_cons.mpr ⟨⟨ascii, inFront⟩, ih⟩
  · intro bytes
    induction u with
    | nil => exact .nil v
    | cons b u ih =>
        obtain ⟨⟨ascii, inFront⟩, bytes⟩ := List.forall_mem_cons.mp bytes
        exact .ascii ascii ((frontIs_ascii ascii _).trans inFront) (ih bytes)

/-- A text is determined by its characters if they are ASCII characters. -/
theorem eq_of_chars_eq (ascii : ∀ b ∈ u, b < 0x80) (same : chars t = chars u) : t = u := by
  have low : ∀ c ∈ chars t, decide (c.toNat < 0x80) = true := by
    intro c member
    rw [same, chars_ascii u ascii] at member
    obtain ⟨b, inText, rfl⟩ := List.mem_map.mp member
    rw [toNat_ofNat_of_lt b.toNat_lt, decide_eq_true_iff]
    exact UInt8.lt_iff_toNat_lt.mp (ascii b inText)
  have whole : Whole t [] := whole_of_ends t (fun _ none => nomatch none)
  have bytes := (stretch_ascii_iff fun c holds => of_decide_eq_true holds).mp
    (stretch_frontIs_iff.mpr ⟨whole, low⟩)
  rw [chars_ascii t fun b member => (bytes b member).1, chars_ascii u ascii] at same
  refine List.map_injective_iff.mpr (fun a b equal => ?_) same
  rw [ofNat_byte_eq_iff, toNat_ofNat_of_lt b.toNat_lt] at equal
  exact UInt8.toNat_inj.mp equal

end Text

end FrontEnd
