import FrontEnd.Lexicon
import FrontEnd.Proofs.Regex.Matching
import FrontEnd.Proofs.Text.Encoding
import Mathlib.Data.List.Forall2

/-!
# Literal texts as regular expressions

The expression for a literal text has a backslash in front of each character.  A backslash takes its
meaning from most bytes, but gives one to some letters: they stand for a control character or for a
whole class of bytes.  So the expression for a literal text is always well-formed, and matches texts
byte by byte, but the literal text alone only if none of these letters is in it
(`literal_matches_iff`).
-/

namespace FrontEnd

open Text (Valid)

namespace Regex

/-! ## What a backslash does -/

/-- The bytes that a backslash and `b` stand for. -/
def escapedClass (b : UInt8) : ByteClass :=
  match escaped b with
  | .named ranges => ⟨ranges, false⟩
  | _ => .single (escapedByte b)

/-- The letters `n`, `r`, `t`, `d`, `s`, `w`, `D`, `S` and `W`, to which a backslash gives a
meaning. -/
def commands : List UInt8 := [0x6E, 0x72, 0x74, 0x64, 0x73, 0x77, 0x44, 0x53, 0x57]

theorem escapedSign_eq (b : UInt8) : escapedSign b = .byte (escapedClass b) := by
  unfold escapedSign escapedClass
  cases escaped b <;> rfl

theorem contains_single_iff {b x : UInt8} : (ByteClass.single b).contains x = true ↔ b = x := by
  simp only [ByteClass.contains, ByteClass.single, List.any_cons, List.any_nil, Bool.or_false,
    Bool.bne_false, Bool.and_eq_true, decide_eq_true_eq]
  constructor
  · intro both
    exact UInt8.le_antisymm both.1 both.2
  · rintro rfl
    exact ⟨UInt8.le_refl b, UInt8.le_refl b⟩

/-- A backslash takes its meaning from all other bytes. -/
theorem escapedClass_of_not_mem {b : UInt8} (other : b ∉ commands) :
    escapedClass b = .single b := by
  simp only [commands, List.mem_cons, List.not_mem_nil, or_false, not_or] at other
  obtain ⟨notN, notR, notT, notD, notS, notW, upperD, upperS, upperW⟩ := other
  have lower {x : UInt8} (different : b ≠ x) : b + 0x20 ≠ x + 0x20 :=
    mt (UInt8.add_left_inj 0x20).mp different
  have notNamed : namedRanges? b = none := by
    rw [namedRanges?, if_neg notD, if_neg notS, if_neg notW]
  have lowerD : b + 0x20 ≠ 0x64 := lower upperD
  have lowerS : b + 0x20 ≠ 0x73 := lower upperS
  have lowerW : b + 0x20 ≠ 0x77 := lower upperW
  have notComplement : namedRanges? (b + 0x20) = none := by
    rw [namedRanges?, if_neg lowerD, if_neg lowerS, if_neg lowerW]
  simp [escapedClass, escaped, namedComplement?, escapedByte, notNamed, notComplement, notN, notR,
    notT]

/-- A command stands for some byte that is not its letter. -/
theorem exists_other_of_mem {b : UInt8} (command : b ∈ commands) :
    ∃ x, x ≠ b ∧ (escapedClass b).contains x = true := by
  -- The control characters are for n, r and t; a digit, a space and a letter serve for the others.
  have all : (commands.all fun b => [0x0A, 0x0D, 0x09, 0x30, 0x20, 0x61].any fun x =>
      x != b && (escapedClass b).contains x) = true := by
    decide
  obtain ⟨x, _, other⟩ := List.any_eq_true.mp (List.all_eq_true.mp all b command)
  rw [Bool.and_eq_true, bne_iff_ne] at other
  exact ⟨x, other⟩

theorem exists_contained (b : UInt8) :
    ∃ x, (escapedClass b).contains x = true ∧ (b ∈ commands → x ≠ b) := by
  by_cases command : b ∈ commands
  · obtain ⟨x, other, contained⟩ := exists_other_of_mem command
    exact ⟨x, contained, fun _ => other⟩
  · refine ⟨b, ?_, fun isOne => absurd isOne command⟩
    rw [escapedClass_of_not_mem command, contains_single_iff]

/-! ## Expressions without operators -/

/-- The text consists of one byte of each class, in order. -/
abbrev Spelled : List ByteClass → Text → Prop := List.Forall₂ fun c b => c.contains b = true

theorem readAll?_bytes (classes : List ByteClass) (items : List Regex) :
    Levels.readAll? ⟨⟨none, items⟩, []⟩ (classes.map .byte) =
      some ⟨⟨none, (classes.map .byte).reverse ++ items⟩, []⟩ := by
  induction classes generalizing items with
  | nil => rfl
  | cons c classes ih =>
      rw [List.map_cons, Levels.readAll?]
      change Levels.readAll? ⟨⟨none, .byte c :: items⟩, []⟩ _ = _
      rw [ih]
      simp

/-- Items that are read one after the other, the latest one first. -/
theorem matches_foldl_iff {last : Regex} {behind : List ByteClass}
    (known : ∀ t, Matches last t ↔ Spelled behind t) (classes : List ByteClass) (t : Text) :
    Matches ((classes.map .byte).foldl (fun behind r => .seq r behind) last) t ↔
      Spelled (classes.reverse ++ behind) t := by
  induction classes generalizing last behind with
  | nil => exact known t
  | cons c classes ih =>
      have next (t : Text) : Matches (.seq (.byte c) last) t ↔ Spelled (c :: behind) t := by
        rw [matches_seq_iff, Spelled, List.forall₂_cons_left_iff]
        constructor
        · rintro ⟨u, v, rfl, front, back⟩
          obtain ⟨b, rfl, contained⟩ := matches_byte_iff.mp front
          exact ⟨b, v, contained, (known v).mp back, rfl⟩
        · rintro ⟨b, v, contained, back, rfl⟩
          exact ⟨[b], v, rfl, .byte contained, (known v).mpr back⟩
      rw [List.map_cons, List.foldl_cons, ih next, List.reverse_cons, List.append_assoc,
        List.singleton_append]

/-- An expression whose signs are classes of bytes matches one byte of each. -/
theorem exists_parse?_of_bytes {pattern : Text} {classes : List ByteClass} (present : classes ≠ [])
    (read : signs pattern = classes.map .byte) :
    ∃ r, parse? pattern = some r ∧ ∀ t, Matches r t ↔ Spelled classes t := by
  have written : pattern.isEmpty = false := by
    rw [List.isEmpty_eq_false_iff]
    intro none
    rw [none] at read
    exact present (List.map_eq_nil_iff.mp read.symm)
  obtain ⟨last, before, split⟩ := List.exists_cons_of_ne_nil (List.reverse_ne_nil_iff.mpr present)
  have single (t : Text) : Matches (.byte last) t ↔ Spelled [last] t := by
    rw [matches_byte_iff, Spelled, List.forall₂_cons_left_iff]
    constructor
    · rintro ⟨b, rfl, contained⟩
      exact ⟨b, [], contained, .nil, rfl⟩
    · rintro ⟨b, v, contained, none, rfl⟩
      rw [List.forall₂_nil_left_iff.mp none]
      exact ⟨b, rfl, contained⟩
  refine ⟨(before.map .byte).foldl (fun behind r => .seq r behind) (.byte last), ?_, fun t => ?_⟩
  · have levels : Levels.readAll? ⟨.empty, []⟩ (classes.map .byte) = some ⟨⟨none, _⟩, []⟩ :=
      readAll?_bytes classes []
    rw [List.append_nil, ← List.map_reverse, split] at levels
    rw [parse?, written, read, levels]
    rfl
  · rw [matches_foldl_iff single, ← List.reverse_cons, ← split, List.reverse_reverse]

/-! ## Literal texts -/

/-- Bytes above the ASCII range stand for themselves, with a backslash in front or without. -/
theorem signsFrom_above {b : UInt8} (above : 0x80 ≤ b) (rest : Text) :
    signsFrom none (b :: rest) = escapedSign b :: signsFrom none rest := by
  have differs (x : UInt8) (low : x < 0x80) : b ≠ x := by
    intro same
    rw [same] at above
    exact UInt8.not_le.mpr low above
  have notCommand : b ∉ commands := by
    intro command
    have low : commands.all (· < 0x80) = true := by decide
    exact differs b (of_decide_eq_true (List.all_eq_true.mp low b command)) rfl
  have same : signOfByte b = escapedSign b := by
    rw [escapedSign_eq, escapedClass_of_not_mem notCommand]
    simp [signOfByte, differs]
  have notBackslash : b ≠ 0x5C := differs 0x5C (by decide)
  have notBracket : b ≠ 0x5B := differs 0x5B (by decide)
  simp [signsFrom, notBackslash, notBracket, same]

theorem signsFrom_append_above {more : Text} (above : ∀ b ∈ more, 0x80 ≤ b) (rest : Text) :
    signsFrom none (more ++ rest) = more.map escapedSign ++ signsFrom none rest := by
  induction more with
  | nil => rfl
  | cons b more ih =>
      rw [List.forall_mem_cons] at above
      rw [List.cons_append, signsFrom_above above.1, ih above.2, List.map_cons, List.cons_append]

/-- The backslash acts on the first byte of a character only; the others do not need one. -/
theorem signsFrom_ofChar (c : Char) (rest : Text) :
    signsFrom none (0x5C :: (Text.ofChar c ++ rest)) =
      (Text.ofChar c).map escapedSign ++ signsFrom none rest := by
  obtain ⟨b, more, spelled, above⟩ :
      ∃ b more, Text.ofChar c = b :: more ∧ ∀ x ∈ more, 0x80 ≤ x := by
    have front := Text.rune?_ofChar c []
    rw [List.append_nil] at front
    rcases Text.ascii_or_above front with ⟨b, more, spelled, _, single⟩ | ⟨_, above⟩
    · have alone : (Text.ofChar c).length = 1 := congrArg Rune.width single
      refine ⟨b, more, spelled, ?_⟩
      rw [spelled, List.length_cons, Nat.add_eq_right, List.length_eq_zero_iff] at alone
      rw [alone]
      exact fun x impossible => absurd impossible List.not_mem_nil
    · rw [List.take_length] at above
      cases spelled : Text.ofChar c with
      | nil =>
          rw [spelled] at front
          cases front
      | cons b more =>
          rw [spelled, List.forall_mem_cons] at above
          exact ⟨b, more, rfl, above.2⟩
  rw [spelled, List.cons_append]
  change escapedSign b :: signsFrom none (more ++ rest) = _
  rw [signsFrom_append_above above, List.map_cons, List.cons_append]

end Regex

namespace Text

theorem spelling_ofChars (cs : List Char) :
    (ofChars cs).spelling.map (·.2) = cs.map ofChar := by
  induction cs with
  | nil => rw [ofChars, List.flatMap_nil, spelling_nil, List.map_nil, List.map_nil]
  | cons c cs ih =>
      rw [ofChars_cons, spelling_of_rune? (rune?_ofChar c _), List.drop_left, List.take_left,
        List.map_cons, ih, List.map_cons]

end Text

namespace Lexicon

open Regex (commands escapedClass escapedSign Spelled)

theorem literalPattern_ofChars {cs : List Char} (present : cs ≠ []) :
    literalPattern (Text.ofChars cs) = cs.flatMap fun c => 0x5C :: Text.ofChar c := by
  rw [literalPattern, Text.spelling_ofChars]
  induction cs with
  | nil => exact absurd rfl present
  | cons c cs ih =>
      cases cs with
      | nil => simp [Text.join, List.intercalate]
      | cons d cs =>
          rw [List.flatMap_cons, ← ih (List.cons_ne_nil d cs)]
          simp [Text.join, List.intercalate]

/-- Each byte of a literal text is read as if it had a backslash of its own. -/
theorem signs_literalPattern {lit : Text} (valid : Valid lit) (present : lit ≠ []) :
    Regex.signs (literalPattern lit) = (lit.map escapedClass).map .byte := by
  obtain ⟨cs, rfl⟩ := valid
  have some : cs ≠ [] := by
    intro none
    rw [none] at present
    exact present rfl
  have escapes : (fun b => Regex.Sign.byte (escapedClass b)) = escapedSign :=
    funext fun b => (Regex.escapedSign_eq b).symm
  rw [literalPattern_ofChars some, Regex.signs, List.map_map, Function.comp_def, escapes]
  clear present some
  induction cs with
  | nil => rfl
  | cons c cs ih =>
      rw [List.flatMap_cons, List.cons_append, Regex.signsFrom_ofChar, ih, Text.ofChars_cons,
        List.map_append]

/-- The classes for a literal text spell nothing else unless there is a command in it. -/
theorem spelled_only_iff (lit : Text) :
    (∀ t, Spelled (lit.map escapedClass) t ↔ t = lit) ↔ ∀ b ∈ lit, b ∉ commands := by
  constructor
  · -- Another byte for each command makes another text.
    intro only b here command
    choose other contained differs using Regex.exists_contained
    have spelled : Spelled (lit.map escapedClass) (lit.map other) := by
      rw [Spelled, List.forall₂_map_left_iff, List.forall₂_map_right_iff, List.forall₂_same]
      exact fun x _ => contained x
    have same : lit.map other = lit.map id := by
      rw [List.map_id]
      exact (only _).mp spelled
    exact differs b command (List.map_inj_left.mp same b here)
  · intro plain t
    have singles : lit.map escapedClass = lit.map .single :=
      List.map_inj_left.mpr fun b here => Regex.escapedClass_of_not_mem (plain b here)
    rw [singles, Spelled, List.forall₂_map_left_iff]
    simp only [Regex.contains_single_iff]
    rw [List.forall₂_eq_eq_eq]
    exact eq_comm

/-! ## Rules -/

theorem exists_rule_of_mapM {entries : List Entry} {rules : List Rule}
    (made : entries.mapM Entry.rule = .ok rules) {e : Entry} (given : e ∈ entries) :
    ∃ rule ∈ rules, e.rule = .ok rule := by
  induction entries generalizing rules with
  | nil => exact absurd given List.not_mem_nil
  | cons first entries ih =>
      rw [List.mapM_cons] at made
      cases front : first.rule with
      | error _ =>
          rw [front] at made
          cases made
      | ok rule =>
          cases behind : entries.mapM Entry.rule with
          | error _ =>
              rw [front, behind] at made
              cases made
          | ok more =>
              rw [front, behind] at made
              cases made
              rcases List.mem_cons.mp given with rfl | later
              · exact ⟨rule, List.mem_cons_self, front⟩
              · obtain ⟨rule, among, same⟩ := ih behind later
                exact ⟨rule, List.mem_cons_of_mem _ among, same⟩

/-- A lexicon has the rule for each of its entries. -/
theorem exists_rule_of_ofEntries {entries : List Entry} {l : Lexicon}
    (built : ofEntries entries = .ok l) {e : Entry} (given : e ∈ entries) :
    ∃ rule ∈ l.rules, e.rule = .ok rule := by
  unfold ofEntries at built
  split at built
  · cases built
  · cases made : entries.mapM Entry.rule with
    | error _ =>
        rw [made] at built
        cases built
    | ok rules =>
        rw [made] at built
        change (if _ then _ else _) = _ at built
        split at built
        · cases built
        · cases built
          exact exists_rule_of_mapM made given

/-- The expression for a literal text that is valid and not empty is well-formed, and it matches
the texts that have a byte for each byte of the literal text, out of those that it stands for with a
backslash in front.  It matches the literal text alone if and only if none of its bytes is a letter
to which a backslash gives a meaning.  Every lexicon with the literal text has the rule with this
expression. -/
theorem literal_matches_iff {lit : Text} (valid : Valid lit) (present : lit ≠ [])
    (kinds : List (Text × TokenKind)) :
    ∃ r, (literalEntry kinds lit).rule = .ok ⟨r, Reaction.ofText (kindOf kinds lit)⟩ ∧
      (∀ t, r.Matches t ↔
        List.Forall₂ (fun b x => (escapedClass b).contains x = true) lit t) ∧
      ((∀ t, r.Matches t ↔ t = lit) ↔ ∀ b ∈ lit, b ∉ commands) ∧
      ∀ literals keywords entries l, lit ∈ literals →
        build literals keywords kinds entries = .ok l →
          ⟨r, Reaction.ofText (kindOf kinds lit)⟩ ∈ l.rules := by
  have some : lit.map escapedClass ≠ [] := mt List.map_eq_nil_iff.mp present
  obtain ⟨r, parsed, known⟩ :=
    Regex.exists_parse?_of_bytes some (signs_literalPattern valid present)
  have made : (literalEntry kinds lit).rule = .ok ⟨r, Reaction.ofText (kindOf kinds lit)⟩ := by
    rw [Entry.rule, literalEntry, parsed]
  refine ⟨r, made, fun t => ?_, ?_, ?_⟩
  · rw [known, Spelled, List.forall₂_map_left_iff]
  · simp only [known]
    exact spelled_only_iff lit
  · intro literals keywords entries l given built
    have listed : literalEntry kinds lit ∈
        literals.map (literalEntry kinds) ++ keywords.map (keywordEntry kinds) ++ entries := by
      apply List.mem_append_left
      apply List.mem_append_left
      exact List.mem_map_of_mem given
    obtain ⟨rule, present, same⟩ := exists_rule_of_ofEntries built listed
    rw [made] at same
    rwa [Except.ok.inj same]

/-- A character of two bytes and a bracket: the lexicon is built, and has a rule for this text
alone. -/
theorem literal_matches_iff_acute :
    ∃ r l, build [[0xC3, 0xA9, 0x5B]] [] [] [] = .ok l ∧ ⟨r, Reaction.ofText 0⟩ ∈ l.rules ∧
      ∀ t, r.Matches t ↔ t = [0xC3, 0xA9, 0x5B] := by
  have valid : Valid [0xC3, 0xA9, 0x5B] := ⟨['é', '['], by decide⟩
  have parsed : Regex.parse? (literalPattern [0xC3, 0xA9, 0x5B]) =
      some (.seq (.byte (.single 0xC3)) (.seq (.byte (.single 0xA9)) (.byte (.single 0x5B)))) := by
    decide +kernel
  obtain ⟨l, built⟩ : ∃ l, build [[0xC3, 0xA9, 0x5B]] [] [] [] = .ok l := by
    simp only [build, ofEntries, List.map_cons, List.map_nil, List.append_nil, List.mapM_cons,
      List.mapM_nil, List.isEmpty_cons, literalEntry, Entry.rule, parsed]
    exact ⟨_, rfl⟩
  obtain ⟨r, _, _, alone, among⟩ := literal_matches_iff valid (by decide) []
  exact ⟨r, l, built, among _ [] [] l List.mem_cons_self built, alone.mpr (by simp [commands])⟩

/-- The rule for the literal text n does not match it, but a line feed. -/
theorem exists_literal_misread :
    ∃ lit r, Valid lit ∧ lit ≠ [] ∧
      (literalEntry [] lit).rule = .ok ⟨r, Reaction.ofText 0⟩ ∧
      ¬ r.Matches lit ∧ r.Matches [0x0A] := by
  have feed : Regex.Matches (.byte (.single 0x0A)) [0x0A] := .byte (by decide)
  have parsed : Regex.parse? (literalPattern [0x6E]) = some (.byte (.single 0x0A)) := by
    decide +kernel
  refine ⟨[0x6E], .byte (.single 0x0A), ⟨['n'], by decide⟩, by decide, ?_, ?_, feed⟩
  · rw [Entry.rule, literalEntry, parsed]
    rfl
  intro letter
  obtain ⟨b, same, contained⟩ := Regex.matches_byte_iff.mp letter
  obtain rfl : 0x6E = b := List.head_eq_of_cons_eq same
  exact absurd (Regex.contains_single_iff.mp contained) (by decide)

end Lexicon

end FrontEnd
