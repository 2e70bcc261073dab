import FrontEnd.Proofs.Lexicon.Skipping
import FrontEnd.Proofs.Regex.Matching

/-!
# Tokens and matches

The rules of a lexicon match bytes, and the cursor of a scanner moves by characters.  The recognizer
tells the cursor to go to the end of a match.  If this is inside of a character the cursor goes on
to the end of the character, so the token that is emitted has more bytes than the match, and what it
stands for is only a part of its lexeme (`recognize_emits`).
-/

namespace FrontEnd

namespace Lexicon

/-- The longest match of the rules at the front of `rest` has `n` bytes, and `rule` is the first one
that matches them. -/
structure IsMatch (l : Lexicon) (rest : Text) (n : Nat) (rule : Rule) : Prop where
  positive : 0 < n
  inside : n ≤ rest.length
  found : rule.pattern.Matches (rest.take n)
  first : ∃ earlier later, l.rules = earlier ++ rule :: later ∧
    ∀ other ∈ earlier, ¬ other.pattern.Matches (rest.take n)
  longest : ∀ m, n < m → m ≤ rest.length →
    ∀ other ∈ l.rules, ¬ other.pattern.Matches (rest.take m)

variable {l : Lexicon} {rest text : Text} {n : Nat} {rule : Rule} {s : Scanner}
  {kind : TokenKind} {literal : Option Literal}

theorem isMatch_iff : l.IsMatch rest n rule ↔ (l.longest rest).best = some (n, rule) := by
  have named (rules : List Rule) (t : Text) :
      (∀ x ∈ rules.map fun rule => (rule, rule.pattern), ¬ x.2.Matches t) ↔
        ∀ rule ∈ rules, ¬ rule.pattern.Matches t := List.forall_mem_map
  rw [longest, Regex.best_longest_iff]
  constructor
  · rintro ⟨positive, inside, found, ⟨earlier, later, rules, others⟩, longest⟩
    have split := congrArg (List.map fun rule => (rule, rule.pattern)) rules
    rw [List.map_append, List.map_cons] at split
    exact ⟨positive, inside, ⟨_, rule.pattern, _, split, found, (named _ _).mpr others⟩,
      fun m longer fits => (named _ _).mpr (longest m longer fits)⟩
  · rintro ⟨positive, inside, ⟨front, r, back, split, found, others⟩, longest⟩
    obtain ⟨earlier, _, rules, rfl, behind⟩ := List.map_eq_append_iff.mp split
    obtain ⟨rule', later, rfl, same, rfl⟩ := List.map_eq_cons_iff.mp behind
    obtain ⟨rfl, rfl⟩ := Prod.mk.inj same
    exact ⟨positive, inside, found, ⟨earlier, later, rules, (named _ _).mp others⟩,
      fun m longer fits => (named _ _).mp (longest m longer fits)⟩

/-! ## What the recognizer emits -/

theorem next_of_empty {offset : Nat} (empty : rest = []) : l.next offset rest = .endOfText := by
  rw [next, if_pos (List.isEmpty_iff.mpr empty)]

/-- Unless the longest match in front is a token, a token that is found comes later. -/
theorem lt_of_next_token {offset first length : Nat}
    (other : ∀ n rule, (l.longest rest).best = some (n, rule) → ∀ kind literal,
      rule.react (rest.take n) ≠ .token kind literal)
    (token : l.next offset rest = .token first length kind literal) : offset < first := by
  by_cases empty : rest = []
  · rw [next_of_empty empty] at token
    cases token
  cases found : (l.longest rest).best with
  | none =>
      rw [next_of_none empty found] at token
      cases token
  | some best =>
      obtain ⟨n, rule⟩ := best
      obtain ⟨positive, _⟩ := Regex.best_longest found
      cases reacts : rule.react (rest.take n) with
      | skip =>
          have order := inOrder_next l (offset + n) (rest.drop n)
          rw [next_of_skip found reacts] at token
          rw [token] at order
          exact (Nat.lt_add_of_pos_right positive).trans_le (order.behind _ _ rfl).1
      | token kind literal => exact absurd reacts (other n rule found kind literal)
      | reject message =>
          rw [next_of_best found, reacts] at token
          cases token

/-- The recognizer emits nothing if what it finds comes later. -/
theorem tokens_act {start : Nat} {found : Next} (s : Scanner)
    (later : ∀ first length kind literal, found = .token first length kind literal →
      start < first) :
    ((act start found).run s).2.tokens = s.tokens := by
  cases found with
  | token first length kind literal =>
      rw [act, if_pos (later first length kind literal rfl)]
      rfl
  | rejected => rfl
  | unrecognized => rfl
  | endOfText => rfl

theorem recognize_run (sound : s.Sound text) :
    l.recognize.run s = (act s.cursor.offset
      (l.next s.cursor.offset (text.drop s.cursor.offset))).run s := by
  rw [← sound.cursor.rest_eq]
  rfl

theorem tokens_recognize_of_not_token (sound : s.Sound text)
    (other : ∀ n rule, l.IsMatch (text.drop s.cursor.offset) n rule → ∀ kind literal,
      rule.react ((text.drop s.cursor.offset).take n) ≠ .token kind literal) :
    (l.recognize.run s).2.tokens = s.tokens := by
  rw [recognize_run sound]
  refine tokens_act s fun first length kind literal token => ?_
  exact lt_of_next_token (fun n rule found => other n rule (isMatch_iff.mpr found)) token

/-- The token for a match: it starts at the cursor, and ends with the character in which the match
ends. -/
theorem tokens_recognize_of_token (sound : s.Sound text) (marked : s.mark = s.cursor)
    (found : l.IsMatch (text.drop s.cursor.offset) n rule)
    (reacts : rule.react ((text.drop s.cursor.offset).take n) = .token kind literal) :
    ∃ stop, IsLeast {i | s.cursor.offset + n ≤ i ∧ text.Boundary i} stop ∧
      (l.recognize.run s).2.tokens = s.tokens ++
        [⟨kind, (text.take stop).drop s.cursor.offset, text.locationAt s.cursor.offset,
          ⟨s.cursor.offset, stop⟩, literal⟩] := by
  have token : l.next s.cursor.offset (text.drop s.cursor.offset) =
      .token s.cursor.offset n kind literal := by
    rw [next_of_best (isMatch_iff.mp found), reacts]
  let t := s.advanceTo (s.cursor.offset + n : Nat)
  have ran : (l.recognize.run s).2 = t.addToken kind literal := by
    rw [recognize_run sound, token, act, if_neg (Nat.lt_irrefl _)]
    rfl
  have there : t.Sound text := Scanner.Reaches.sound (Scanner.Reaches.advanceTo s _) sound
  have inside : s.cursor.offset + n ≤ text.length := by
    have fits := found.inside
    have bounded := sound.cursor.offset_le
    rw [List.length_drop] at fits
    omega
  have mark : t.mark = s.cursor := marked
  refine ⟨_, sound.cursor.isLeast_advanceTo (Nat.le_add_right _ n) inside, ?_⟩
  rw [ran, Scanner.tokens_addToken, there.lexeme_eq, mark, sound.cursor.location_eq]
  rfl

/-- A cut from `start` to the first boundary behind `n` bytes has these bytes only if the boundary
is right there. -/
theorem cut_eq_take_iff {start stop : Nat}
    (first : IsLeast {i | start + n ≤ i ∧ text.Boundary i} stop) :
    (text.take stop).drop start = (text.drop start).take n ↔ stop = start + n := by
  have far := first.1.1
  have bounded := first.1.2.le_length
  rw [List.drop_take]
  constructor
  · intro same
    have sizes := congrArg List.length same
    rw [List.length_take, List.length_take, List.length_drop] at sizes
    omega
  · rintro rfl
    rw [Nat.add_sub_cancel_left]

theorem stop_eq_iff {start stop : Nat}
    (first : IsLeast {i | start + n ≤ i ∧ text.Boundary i} stop) :
    stop = start + n ↔ text.Boundary (start + n) := by
  constructor
  · rintro rfl
    exact first.1.2
  · intro boundary
    exact Nat.le_antisymm (first.2 ⟨Nat.le_refl _, boundary⟩) first.1.1

/-- What one call of the recognizer emits.  If the longest match in front of the cursor is a token,
this token is emitted, and goes up to the first boundary between characters that is not in front of
the end of the match.  So its lexeme is what was matched, and its span is where it was matched, and
what it stands for is its lexeme if it stands for what was matched, all exactly if the match ends at
a boundary.  In all other cases nothing is emitted. -/
theorem recognize_emits (l : Lexicon) {before s : Scanner} {text : Text}
    (during : Scanner.Reaches (before.reset text) s) (marked : s.mark = s.cursor) :
    let start := s.cursor.offset
    let rest := text.drop start
    let emitted := (l.recognize.run s).2.tokens
    (∀ n rule kind literal, l.IsMatch rest n rule →
      rule.react (rest.take n) = .token kind literal →
      ∃ x stop, emitted = s.tokens ++ [x] ∧
        IsLeast {i | start + n ≤ i ∧ text.Boundary i} stop ∧
        x = ⟨kind, (text.take stop).drop start, text.locationAt start, ⟨start, stop⟩, literal⟩ ∧
        (x.lexeme = rest.take n ↔ text.Boundary (start + n)) ∧
        (x.span = ⟨start, (start + n : Nat)⟩ ↔ text.Boundary (start + n)) ∧
        (rule.react = Reaction.ofText kind →
          (x.literal = some (.text x.lexeme) ↔ text.Boundary (start + n)))) ∧
      ((∀ n rule, l.IsMatch rest n rule →
        ∀ kind literal, rule.react (rest.take n) ≠ .token kind literal) →
        emitted = s.tokens) := by
  intro start rest emitted
  have sound := during.sound (Scanner.sound_reset before text)
  refine ⟨fun n rule kind literal found reacts => ?_, tokens_recognize_of_not_token sound⟩
  obtain ⟨stop, first, appended⟩ := tokens_recognize_of_token sound marked found reacts
  have lexeme := (cut_eq_take_iff first).trans (stop_eq_iff first)
  refine ⟨_, stop, appended, first, rfl, lexeme, ?_, fun ofText => ?_⟩
  · rw [← stop_eq_iff first, Span.mk.injEq, and_iff_right rfl]
    exact Int.ofNat_inj
  · rw [ofText, Reaction.ofText, Reaction.token.injEq] at reacts
    rw [← reacts.2, Option.some_inj, Literal.text.injEq, eq_comm]
    exact lexeme

/-! ## A match that ends inside of a character -/

/-- Any byte is a token that stands for itself. -/
def byteRule : Rule := ⟨.byte .all, Reaction.ofText 1⟩

def byteLexicon : Lexicon := ⟨[byteRule]⟩

/-- The two bytes of the letter e with an acute accent. -/
def acuteText : Text := [0xC3, 0xA9]

/-- A scanner in front of them, without comments. -/
def acuteScanner : Scanner := (Scanner.new .off).reset acuteText

theorem isMatch_acuteText : byteLexicon.IsMatch acuteText 1 byteRule := isMatch_iff.mpr rfl

theorem not_boundary_acuteText : ¬ acuteText.Boundary 1 := by
  intro boundary
  have first : Text.rune? (acuteText.drop 0) = some ⟨'é', 2⟩ := rfl
  rcases Text.Boundary.front.le_or_next_le first boundary with front | behind
  · exact absurd front (by decide)
  · exact absurd behind (by decide)

theorem recognize_emits_acute :
    ∃ x, (byteLexicon.recognize.run acuteScanner).2.tokens = [x] ∧ x.lexeme ≠ [0xC3] ∧
      x.span ≠ ⟨0, 1⟩ ∧ x.literal ≠ some (.text x.lexeme) := by
  obtain ⟨x, stop, appended, _, _, lexeme, span, literal⟩ :=
    (recognize_emits byteLexicon (.refl acuteScanner) rfl).1 1 byteRule 1 (some (.text [0xC3]))
      isMatch_acuteText rfl
  exact ⟨x, appended, mt lexeme.mp not_boundary_acuteText, mt span.mp not_boundary_acuteText,
    mt (literal rfl).mp not_boundary_acuteText⟩

theorem exists_token_beyond_match :
    ¬ ∀ (l : Lexicon) (before s : Scanner) (text : Text), Scanner.Reaches (before.reset text) s →
      s.mark = s.cursor → ∀ n rule kind, l.IsMatch (text.drop s.cursor.offset) n rule →
      rule.react = Reaction.ofText kind →
      ∀ x, (l.recognize.run s).2.tokens = s.tokens ++ [x] →
        x.lexeme = (text.drop s.cursor.offset).take n ∧
        x.span = ⟨s.cursor.offset, (s.cursor.offset + n : Nat)⟩ ∧
        x.literal = some (.text x.lexeme) := by
  intro matched
  have sound : acuteScanner.Sound acuteText := Scanner.sound_reset _ _
  obtain ⟨stop, first, appended⟩ :=
    tokens_recognize_of_token sound rfl isMatch_acuteText rfl
  obtain ⟨lexeme, -⟩ := matched byteLexicon _ acuteScanner acuteText (.refl acuteScanner) rfl 1
    byteRule 1 isMatch_acuteText rfl _ appended
  exact not_boundary_acuteText ((stop_eq_iff first).mp ((cut_eq_take_iff first).mp lexeme))

end Lexicon

end FrontEnd
