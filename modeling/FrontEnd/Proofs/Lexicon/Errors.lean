import FrontEnd.Proofs.Lexicon.Tokens

/-!
# Where errors are located

A call of the recognizer of a lexicon complains about at most one thing: a place from which no rule
matches, or a match that its rule refuses.  Other matches may have been passed over before it
(`Skips`).  The complaint quotes the thing it is about, but it is located where the call started.
These are two different locations as soon as anything was passed over, however little
(`recognize_reports`).
-/

namespace FrontEnd

namespace Text

variable {text : Text} {n m : Nat}

/-- What comes behind the start of a character is at another location. -/
theorem countedLocation_eq_iff (boundary : text.Boundary n) (le : n ≤ m) :
    text.countedLocation n = text.countedLocation m ↔ m = n := by
  refine ⟨fun same => ?_, fun same => by rw [same]⟩
  obtain ⟨line, column⟩ := Location.mk.inj same
  have lines : text.lineEnds n = text.lineEnds m := Int.ofNat.inj (Int.add_left_cancel line)
  have columns : (text.runeStarts (text.lineStart n) n).ncard =
      (text.runeStarts (text.lineStart m) m).ncard := Int.ofNat.inj (Int.add_left_cancel column)
  rw [← lineStart_eq_of_lineEnds_eq le lines] at columns
  by_contra other
  have lt : n < m := Nat.lt_of_le_of_ne le (Ne.symm other)
  -- A character starts at the first of the two offsets, so the second is a column further.
  have fewer : text.runeStarts (text.lineStart n) n ⊂ text.runeStarts (text.lineStart n) m := by
    refine ⟨fun i member => ⟨member.1, member.2.1.trans_le le, member.2.2⟩, fun all => ?_⟩
    exact Nat.lt_irrefl n (all ⟨text.lineStart_le n, lt, boundary⟩).2.1
  exact Nat.ne_of_lt (Set.ncard_lt_ncard fewer (finite_runeStarts text _ _)) columns

end Text

namespace Lexicon

/-- From the offset `n` on, matches are passed over one after the other, up to the offset that is
given last. -/
inductive Skips (l : Lexicon) (text : Text) : Nat → Nat → Prop where
  | nothing (n : Nat) : Skips l text n n
  | next {n m k : Nat} {rule : Rule} (found : l.IsMatch (text.drop n) k rule)
      (skips : rule.react ((text.drop n).take k) = .skip) (rest : Skips l text (n + k) m) :
      Skips l text n m

/-- There is something to complain about at the offset `first`: no rule matches from there on, or
the rule of the match refuses it. -/
inductive Complains (l : Lexicon) (text : Text) (first : Nat) : Text → Prop where
  | unrecognized (inside : first < text.length)
      (nothing : ∀ n rule, ¬ l.IsMatch (text.drop first) n rule) :
      Complains l text first
        (unrecognizedMessage ((text.drop first).take (l.longest (text.drop first)).seen))
  | rejected {n : Nat} {rule : Rule} {message : Text}
      (found : l.IsMatch (text.drop first) n rule)
      (rejects : rule.react ((text.drop first).take n) = .reject message) :
      Complains l text first message

/-- What the recognizer complains about when a search has come to something. -/
def Next.complaint? : Next → Option Text
  | .unrecognized _ _ bytes => some (unrecognizedMessage bytes)
  | .rejected _ _ message => some message
  | .token _ _ _ _ => none
  | .endOfText => none

variable {l : Lexicon} {text message : Text} {n m first : Nat} {s : Scanner}

/-! ## What a search comes to -/

theorem Skips.le (skips : l.Skips text n m) : n ≤ m := by
  induction skips with
  | nothing => exact Nat.le_refl _
  | next _ _ _ ih => exact (Nat.le_add_right _ _).trans ih

/-- A search goes on behind the matches that are passed over. -/
theorem Skips.next_eq (skips : l.Skips text n m) :
    l.next n (text.drop n) = l.next m (text.drop m) := by
  induction skips with
  | nothing => rfl
  | next found skips _ ih => rw [next_of_skip (isMatch_iff.mp found) skips, List.drop_drop, ih]

theorem longest_best_eq_none (nothing : ∀ n rule, ¬ l.IsMatch text n rule) :
    (l.longest text).best = none := by
  cases found : (l.longest text).best with
  | none => rfl
  | some best => exact absurd (isMatch_iff.mpr found) (nothing best.1 best.2)

theorem Complains.complaint?_next (complains : l.Complains text first message) :
    (l.next first (text.drop first)).complaint? = some message := by
  cases complains with
  | unrecognized inside nothing =>
      have present : text.drop first ≠ [] := mt List.drop_eq_nil_iff.mp (Nat.not_le.mpr inside)
      rw [next_of_none present (longest_best_eq_none nothing)]
      rfl
  | rejected found rejects =>
      rw [next_of_best (isMatch_iff.mp found), rejects]
      rfl

/-- A search that ends with a complaint has passed over everything in front of it. -/
theorem exists_complains {offset : Nat} {rest : Text} (ahead : text.drop offset = rest)
    (complaint : (l.next offset rest).complaint? = some message) :
    ∃ first, l.Skips text offset first ∧ l.Complains text first message := by
  fun_induction next l offset rest with
  | case1 => cases complaint
  | case2 offset rest present nothing =>
      subst ahead
      cases complaint
      refine ⟨offset, .nothing offset, .unrecognized ?_ fun n rule found => ?_⟩
      · rw [List.isEmpty_iff, List.drop_eq_nil_iff] at present
        exact Nat.not_le.mp present
      · rw [isMatch_iff, nothing] at found
        cases found
  | case3 offset rest _ n rule found skips ih =>
      subst ahead
      obtain ⟨first, later, complains⟩ := ih List.drop_drop.symm complaint
      exact ⟨first, .next (isMatch_iff.mpr found) skips later, complains⟩
  | case4 => cases complaint
  | case5 offset rest _ n rule found message rejects =>
      subst ahead
      cases complaint
      exact ⟨offset, .nothing offset, .rejected (isMatch_iff.mpr found) rejects⟩

/-! ## What the recognizer reports -/

/-- The recognizer answers that it has found something exactly if it does not complain. -/
theorem answer_act (start : Nat) (found : Next) (s : Scanner) :
    ((act start found).run s).1 = found.complaint?.isNone := by
  cases found with
  | token first length kind literal =>
      rw [act]
      split <;> rfl
  | rejected => rfl
  | unrecognized => rfl
  | endOfText => rfl

theorem diagnostics_act (start : Nat) (found : Next) (s : Scanner) :
    ((act start found).run s).2.diagnostics.toList = s.diagnostics.toList ++
      (found.complaint?.map (Diagnostic.mk s.mark.location)).toList := by
  cases found with
  | token first length kind literal =>
      rw [act]
      split <;> exact (List.append_nil _).symm
  | rejected => exact Diagnostics.toList_add _ _ _
  | unrecognized => exact Diagnostics.toList_add _ _ _
  | endOfText => exact (List.append_nil _).symm

theorem diagnostics_recognize (sound : s.Sound text) (marked : s.mark = s.cursor) :
    (l.recognize.run s).2.diagnostics.toList = s.diagnostics.toList ++
      ((l.next s.cursor.offset (text.drop s.cursor.offset)).complaint?.map
        (Diagnostic.mk (text.countedLocation s.cursor.offset))).toList := by
  rw [recognize_run sound, diagnostics_act, marked, sound.cursor.location_eq,
    Text.locationAt_eq_counted sound.cursor.boundary]

/-- What one call of the recognizer reports.  Something to complain about behind the matches that
are passed over is reported, and nothing else is.  The report is located where the call starts, and
so at what it is about exactly if no match is passed over. -/
theorem recognize_reports (l : Lexicon) {before s : Scanner} {text : Text}
    (during : Scanner.Reaches (before.reset text) s) (marked : s.mark = s.cursor) :
    let start := s.cursor.offset
    let reported := (l.recognize.run s).2.diagnostics.toList
    (∀ first message, l.Skips text start first → l.Complains text first message →
      ∃ d, reported = s.diagnostics.toList ++ [d] ∧ d.message = message ∧
        d.location = text.countedLocation start ∧
        (d.location = text.countedLocation first ↔ first = start)) ∧
      (reported = s.diagnostics.toList ∨
        ∃ first message, l.Skips text start first ∧ l.Complains text first message) := by
  intro start reported
  have sound := during.sound (Scanner.sound_reset before text)
  have report : reported = s.diagnostics.toList ++
      ((l.next start (text.drop start)).complaint?.map
        (Diagnostic.mk (text.countedLocation start))).toList := diagnostics_recognize sound marked
  constructor
  · intro first message skips complains
    rw [skips.next_eq, complains.complaint?_next] at report
    exact ⟨_, report, rfl, rfl, Text.countedLocation_eq_iff sound.cursor.boundary skips.le⟩
  · cases complaint : (l.next start (text.drop start)).complaint? with
    | none =>
        rw [complaint] at report
        exact Or.inl (report.trans (List.append_nil _))
    | some message =>
        obtain ⟨first, skips, complains⟩ := exists_complains rfl complaint
        exact Or.inr ⟨first, message, skips, complains⟩

/-! ## An error that is located at a comma -/

/-- The text ",~". -/
def tildeText : Text := [0x2C, 0x7E]

/-- A scanner in front of it, without comments. -/
def tildeScanner : Scanner := (Scanner.new .off).reset tildeText

theorem skips_tildeText : commaLexicon.Skips tildeText 0 1 := by
  have comma : commaLexicon.IsMatch (tildeText.drop 0) 1 commaRule := isMatch_iff.mpr rfl
  exact .next comma rfl (.nothing 1)

theorem complains_tildeText :
    commaLexicon.Complains tildeText 1 (unrecognizedMessage [0x7E]) := by
  refine .unrecognized (Nat.lt_succ_self 1) fun n rule found => ?_
  cases isMatch_iff.mp found

theorem recognize_reports_tilde :
    ∃ d, (commaLexicon.recognize.run tildeScanner).2.diagnostics.toList = [d] ∧
      d.message = unrecognizedMessage [0x7E] ∧ d.location = tildeText.countedLocation 0 ∧
      d.location ≠ tildeText.countedLocation 1 := by
  obtain ⟨d, reported, message, location, there⟩ :=
    (recognize_reports commaLexicon (.refl tildeScanner) rfl).1 1 _ skips_tildeText
      complains_tildeText
  exact ⟨d, reported, message, location, mt there.mp (Nat.succ_ne_zero 0)⟩

theorem exists_error_elsewhere :
    ¬ ∀ (l : Lexicon) (before s : Scanner) (text : Text), Scanner.Reaches (before.reset text) s →
      s.mark = s.cursor → ∀ first message, l.Skips text s.cursor.offset first →
      l.Complains text first message →
      ∀ d, (l.recognize.run s).2.diagnostics.toList = s.diagnostics.toList ++ [d] →
        d.location = text.countedLocation first := by
  intro located
  have sound : tildeScanner.Sound tildeText := Scanner.sound_reset _ _
  have report := diagnostics_recognize (l := commaLexicon) sound rfl
  change _ = _ ++ ((commaLexicon.next 0 (tildeText.drop 0)).complaint?.map _).toList at report
  rw [skips_tildeText.next_eq, complains_tildeText.complaint?_next] at report
  have elsewhere := located commaLexicon _ tildeScanner tildeText (.refl tildeScanner) rfl 1 _
    skips_tildeText complains_tildeText _ report
  cases (Text.countedLocation_eq_iff .front (Nat.zero_le 1)).mp elsewhere

end Lexicon

end FrontEnd
