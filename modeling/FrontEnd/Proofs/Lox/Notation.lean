import FrontEnd.Expr.Notation
import FrontEnd.Proofs.Lox.Classes
import FrontEnd.Proofs.Lox.Statements

/-!
# Expressions read back from their texts

The text of an expression that a parse returns tells everything about it except where its tokens
stand (`toText_eq_iff`).

The texts of the parts need no lengths or separators of their own to be told apart.  A literal is
either between quotes, with no quote inside, or consists of bytes that are neither spaces nor
quotes nor parentheses; the same holds of the sign behind an opening parenthesis; and behind each
part comes a space, a closing parenthesis or nothing.
-/

namespace FrontEnd

/-- A token that is nowhere. -/
def Token.unplaced (t : Token) : Token := { t with location := .null, span := .null }

namespace Expr

/-- An expression whose tokens are nowhere. -/
def unplaced : Expr → Expr
  | .hole => .hole
  | .literal t => .literal t.unplaced
  | .grouped paren e => .grouped paren.unplaced e.unplaced
  | .unary op e => .unary op.unplaced e.unplaced
  | .binary l op r => .binary l.unplaced op.unplaced r.unplaced
  | .ternary c y n => .ternary c.unplaced y.unplaced n.unplaced

theorem toTextOnto_unplaced (e : Expr) (behind : Text) :
    e.unplaced.toTextOnto behind = e.toTextOnto behind := by
  induction e generalizing behind with
  | hole => rfl
  | literal t => rfl
  | grouped paren e ih => simp only [unplaced, toTextOnto, ih]
  | unary op e ih => simp only [unplaced, toTextOnto, ih, Token.unplaced]
  | binary l op r ihl ihr => simp only [unplaced, toTextOnto, ihl, ihr, Token.unplaced]
  | ternary c y n ihc ihy ihn => simp only [unplaced, toTextOnto, ihc, ihy, ihn]

/-! ## The layout of a text -/

/-- The word behind the opening parenthesis. -/
def sign : Expr → Text
  | .grouped _ _ => Text.ofString "group"
  | .unary op _ => op.lexeme
  | .binary _ op _ => op.lexeme
  | .ternary _ _ _ => Text.ofString "?:"
  | _ => []

/-- Writes expressions in front of a closing parenthesis, each with a space in front of it. -/
def partsOnto (behind : Text) : List Expr → Text
  | [] => 0x29 :: behind
  | e :: es => 0x20 :: e.toTextOnto (partsOnto behind es)

theorem toTextOnto_of_children {e : Expr} (compound : e.children ≠ []) (behind : Text) :
    e.toTextOnto behind = 0x28 :: (e.sign ++ partsOnto behind e.children) := by
  cases e with
  | hole => exact absurd rfl compound
  | literal t => exact absurd rfl compound
  | grouped paren e => rfl
  | unary op e => rfl
  | binary l op r => rfl
  | ternary c y n => rfl

end Expr

namespace Lox

/-! ## Words -/

/-- The bytes that set the parts of a text apart: the space, the quote and the parentheses. -/
def delimiters : List UInt8 := [0x20, 0x22, 0x28, 0x29]

/-- A text without delimiters. -/
def Bare (t : Text) : Prop := t ≠ [] ∧ ∀ b ∈ t, b ∉ delimiters

theorem bare_iff {t : Text} :
    Bare t ↔ t ≠ [] ∧ (t.all fun b => decide (b ∉ delimiters)) = true := by
  simp only [Bare, List.all_eq_true, decide_eq_true_eq]

instance (t : Text) : Decidable (Bare t) := decidable_of_iff' _ bare_iff

/-- Nothing stands in front, or something that ends a word. -/
def EndsWord (t : Text) : Prop := ∀ b ∈ t.head?, b = 0x20 ∨ b = 0x29

/-- Bytes of one kind end where a byte of another kind stands. -/
theorem append_inj_of_stops {p : UInt8 → Bool} {u v u' v' : Text} (inside : ∀ b ∈ u, p b = true)
    (inside' : ∀ b ∈ u', p b = true) (stops : ∀ b ∈ v.head?, p b = false)
    (stops' : ∀ b ∈ v'.head?, p b = false) (same : u ++ v = u' ++ v') : u = u' ∧ v = v' := by
  have front {u v : Text} (inside : ∀ b ∈ u, p b = true) (stops : ∀ b ∈ v.head?, p b = false) :
      (u ++ v).takeWhile p = u := by
    have nothing : v.takeWhile p = [] := by
      cases v with
      | nil => rfl
      | cons b v => exact List.takeWhile_cons_of_neg (Bool.eq_false_iff.mp (stops b rfl))
    rw [List.takeWhile_append_of_pos inside, nothing, List.append_nil]
  have first : u = u' := by
    rw [← front inside stops, same, front inside' stops']
  rw [first] at same
  exact ⟨first, List.append_cancel_left same⟩

theorem Bare.append_inj {u v u' v' : Text} (bare : Bare u) (bare' : Bare u') (ends : EndsWord v)
    (ends' : EndsWord v') (same : u ++ v = u' ++ v') : u = u' ∧ v = v' := by
  have stops {v : Text} (ends : EndsWord v) :
      ∀ b ∈ v.head?, decide (b ∉ delimiters) = false := by
    intro b front
    rcases ends b front with rfl | rfl <;> decide
  refine append_inj_of_stops (p := fun b => decide (b ∉ delimiters)) ?_ ?_ (stops ends)
    (stops ends') same
  · exact fun b here => decide_eq_true (bare.2 b here)
  · exact fun b here => decide_eq_true (bare'.2 b here)

theorem IsQuoted.append_inj {u v u' v' : Text} (quoted : IsQuoted u) (quoted' : IsQuoted u')
    (same : u ++ v = u' ++ v') : u = u' ∧ v = v' := by
  obtain ⟨body, inside, rfl⟩ := quoted
  obtain ⟨body', inside', rfl⟩ := quoted'
  have other {b : UInt8} {body : Text} (inside : 0x22 ∉ body) (here : b ∈ body) :
      (b != 0x22) = true := by
    rw [bne_iff_ne]
    rintro rfl
    exact inside here
  have stops (v : Text) : ∀ b ∈ ([0x22] ++ v).head?, (b != 0x22) = false := by
    intro b front
    rw [← Option.some_inj.mp front]
    rfl
  simp only [List.cons_append, List.append_assoc, List.cons.injEq, true_and] at same
  obtain ⟨rfl, behind⟩ := append_inj_of_stops (fun _ => other inside) (fun _ => other inside')
    (stops v) (stops v') same
  exact ⟨rfl, (List.cons.inj behind).2⟩

/-- The first byte tells texts in quotes from those without delimiters. -/
theorem Bare.append_ne_of_isQuoted {u v u' v' : Text} (bare : Bare u) (quoted : IsQuoted u') :
    u ++ v ≠ u' ++ v' := by
  obtain ⟨body, _, rfl⟩ := quoted
  obtain ⟨b, rest, rfl⟩ := List.exists_cons_of_ne_nil bare.1
  intro same
  have front : b = 0x22 := (List.cons.inj same).1
  exact absurd (bare.2 b List.mem_cons_self) (by rw [front]; decide)

/-- A text in quotes, or one without delimiters. -/
def Word (t : Text) : Prop := IsQuoted t ∨ Bare t

theorem Word.append_inj {u v u' v' : Text} (word : Word u) (word' : Word u') (ends : EndsWord v)
    (ends' : EndsWord v') (same : u ++ v = u' ++ v') : u = u' ∧ v = v' := by
  rcases word with quoted | bare
  · rcases word' with quoted' | bare'
    · exact quoted.append_inj quoted' same
    · exact absurd same.symm (bare'.append_ne_of_isQuoted quoted)
  · rcases word' with quoted' | bare'
    · exact absurd same (bare.append_ne_of_isQuoted quoted')
    · exact bare.append_inj bare' ends ends' same

theorem Word.ne_nil {t : Text} (word : Word t) : t ≠ [] := by
  rcases word with ⟨body, _, rfl⟩ | bare
  · exact List.cons_ne_nil _ _
  · exact bare.1

/-- No word starts with a parenthesis. -/
theorem Word.append_ne {u v w : Text} (word : Word u) : u ++ v ≠ 0x28 :: w := by
  intro same
  rcases word with ⟨body, _, rfl⟩ | ⟨present, bare⟩
  · exact absurd (List.cons.inj same).1 (by decide)
  · obtain ⟨b, rest, rfl⟩ := List.exists_cons_of_ne_nil present
    have front : b = 0x28 := (List.cons.inj same).1
    exact absurd (bare b List.mem_cons_self) (by rw [front]; decide)

/-! ## Tokens -/

/-- A token of a symbol has a lexeme of its class, and stands for what the lexeme says. -/
structure Scanned (s : Symbol) (t : Token) : Prop where
  kind : t.kind = s.kind
  hasLexeme : s.HasLexeme t.lexeme
  denotes : s.Denotes t.lexeme t.literal

theorem exists_scanned {text : Text} {t : Token} (member : t ∈ (scan newScanner text).tokens) :
    ∃ s, Scanned s t := by
  obtain ⟨s, _, _, kind, _, _, finds⟩ := exists_finds_of_mem_scan member
  have present := finds.ne_nil
  cases finds with
  | lexeme _ _ lexeme =>
      obtain ⟨hasLexeme, denotes⟩ := lexeme.hasLexeme present
      exact ⟨s, kind, hasLexeme, denotes⟩

theorem exists_scanned_of_isOneOf {symbols : List Symbol} {t : Token}
    (one : isOneOf symbols t = true) (scanned : ∃ s, Scanned s t) :
    ∃ s ∈ symbols, Scanned s t := by
  obtain ⟨s, scanned⟩ := scanned
  obtain ⟨u, member, known⟩ := isOneOf_iff.mp one
  obtain rfl : s = u := Symbol.kind_inj.mp (scanned.kind.symm.trans known)
  exact ⟨s, member, scanned⟩

theorem Symbol.Denotes.unique {s : Symbol} {t : Text} {l m : Option Literal}
    (first : s.Denotes t l) (second : s.Denotes t m) : l = m := by
  cases s with
  | integer =>
      obtain ⟨n, value, rfl⟩ := first
      obtain ⟨m, value', rfl⟩ := second
      rw [Except.ok.inj (value.symm.trans value')]
  | float =>
      obtain ⟨x, value, rfl⟩ := first
      obtain ⟨y, value', rfl⟩ := second
      rw [Except.ok.inj (value.symm.trans value')]
  | string =>
      obtain ⟨body, split, rfl⟩ := first
      obtain ⟨body', split', rfl⟩ := second
      rw [List.append_cancel_right (List.cons.inj (split.symm.trans split')).2]
  | _ => exact first.trans second.symm

/-- The symbol and the lexeme of a token tell everything about it except its place. -/
theorem Scanned.unplaced_eq {s : Symbol} {t u : Token} (scanned : Scanned s t)
    (scanned' : Scanned s u) (same : t.lexeme = u.lexeme) : t.unplaced = u.unplaced := by
  have denotes := scanned'.denotes
  rw [← same] at denotes
  rw [Token.unplaced, Token.unplaced, scanned.kind, scanned'.kind, same,
    scanned.denotes.unique denotes]

/-! ### Operators -/

/-- The operators of expressions. -/
def operators : List Symbol :=
  unaryOperators ++ Level.equality.operators ++ Level.comparison.operators
    ++ Level.term.operators ++ Level.factor.operators

theorem Level.operators_subset_operators (level : Level) :
    level.operators ⊆ Lox.operators := by
  cases level <;> decide

theorem Scanned.lexeme_of_mem {s : Symbol} {t : Token} (scanned : Scanned s t)
    (isOperator : s ∈ operators) : t.lexeme = s.spelling := by
  have fixed : ∀ s ∈ operators, s.isFixed = true := by decide
  exact (Symbol.hasLexeme_of_isFixed (fixed s isOperator) t.lexeme).mp scanned.hasLexeme

/-- Operators have no delimiters in them, and are not the word for a group. -/
theorem Scanned.operator_lexeme {s : Symbol} {t : Token} (scanned : Scanned s t)
    (isOperator : s ∈ operators) : Bare t.lexeme ∧ t.lexeme ≠ Text.ofString "group" := by
  have spelled : ∀ s ∈ operators, Bare s.spelling ∧ s.spelling ≠ Text.ofString "group" := by
    decide
  rw [scanned.lexeme_of_mem isOperator]
  exact spelled s isOperator

theorem Scanned.operator_unplaced_eq {s u : Symbol} {t x : Token} (scanned : Scanned s t)
    (scanned' : Scanned u x) (isOperator : s ∈ operators) (isOperator' : u ∈ operators)
    (same : t.lexeme = x.lexeme) : t.unplaced = x.unplaced := by
  have apart : ∀ s ∈ operators, ∀ u ∈ operators, s.spelling = u.spelling → s = u := by
    decide
  have spellings : s.spelling = u.spelling := by
    rw [← scanned.lexeme_of_mem isOperator, ← scanned'.lexeme_of_mem isOperator', same]
  obtain rfl := apart s isOperator u isOperator' spellings
  exact scanned.unplaced_eq scanned' same

/-! ### Literals -/

theorem IsDigits.bare {t : Text} (digits : IsDigits t) : Bare t := by
  have all : delimiters.all (· < 0x30) = true := by decide
  refine ⟨digits.1, fun b here delimiter => ?_⟩
  have low : b < 0x30 := of_decide_eq_true (List.all_eq_true.mp all b delimiter)
  exact absurd (digits.2 b here).1 (UInt8.not_le.mpr low)

theorem IsFraction.bare {t : Text} (fraction : IsFraction t) : Bare t := by
  obtain ⟨d, digits, rfl⟩ := fraction
  refine ⟨List.cons_ne_nil _ _, List.forall_mem_cons.mpr ⟨by decide, digits.bare.2⟩⟩

theorem IsExponent.bare {t : Text} (exponent : IsExponent t) : Bare t := by
  obtain ⟨mark, sign, d, isMark, isSign, digits, rfl⟩ := exponent
  refine ⟨List.cons_ne_nil _ _, List.forall_mem_cons.mpr ⟨?_, List.forall_mem_append.mpr ⟨?_, ?_⟩⟩⟩
  · rcases isMark with rfl | rfl <;> decide
  · rcases isSign with rfl | rfl | rfl
    · exact List.forall_mem_nil _
    · exact List.forall_mem_singleton.mpr (by decide)
    · exact List.forall_mem_singleton.mpr (by decide)
  · exact digits.bare.2

theorem IsFloat.bare {t : Text} (float : IsFloat t) : Bare t := by
  obtain ⟨d, f, e, digits, fraction, exponent, _, rfl⟩ := float
  refine ⟨List.append_ne_nil_of_left_ne_nil digits.1 _, ?_⟩
  rw [List.forall_mem_append, List.forall_mem_append]
  refine ⟨digits.bare.2, ?_, ?_⟩
  · rcases fraction with rfl | fraction
    · exact List.forall_mem_nil _
    · exact fraction.bare.2
  · rcases exponent with rfl | exponent
    · exact List.forall_mem_nil _
    · exact exponent.bare.2

/-- A fraction and an exponent each start with something that is no digit. -/
theorem IsFloat.exists_not_digit {t : Text} (float : IsFloat t) :
    ∃ b ∈ t, ¬ (0x30 ≤ b ∧ b ≤ 0x39) := by
  obtain ⟨d, f, e, digits, fraction, exponent, present, rfl⟩ := float
  rcases fraction with rfl | ⟨d', _, rfl⟩
  · rcases exponent with rfl | ⟨mark, sign, d', isMark, _, _, rfl⟩
    · exact absurd rfl present
    · refine ⟨mark, by simp, ?_⟩
      rcases isMark with rfl | rfl <;> decide
  · exact ⟨0x2E, by simp, by decide⟩

/-- The leaf that a lexeme belongs to. -/
def leafOf (t : Text) : Symbol :=
  match t.head? with
  | some 0x74 => .kwTrue
  | some 0x66 => .kwFalse
  | some 0x6E => .kwNull
  | some 0x22 => .string
  | _ => if t.all fun b => decide (0x30 ≤ b ∧ b ≤ 0x39) then .integer else .float

theorem leafOf_of_digits {d : Text} (digits : IsDigits d) (rest : Text) :
    leafOf (d ++ rest) =
      if (d ++ rest).all fun b => decide (0x30 ≤ b ∧ b ≤ 0x39) then .integer else .float := by
  obtain ⟨b, d, rfl⟩ := List.exists_cons_of_ne_nil digits.1
  have digit := digits.2 b List.mem_cons_self
  have front : ((b :: d) ++ rest).head? = some b := rfl
  unfold leafOf
  rw [front]
  split
  all_goals first
    | rfl
    | rename_i same
      rw [Option.some_inj.mp same] at digit
      exact absurd digit (by decide)

/-- The lexeme of a leaf is a word, and belongs to no other leaf. -/
theorem leaf_lexeme {s : Symbol} {t : Text} (isLeaf : s ∈ leaves) (hasLexeme : s.HasLexeme t) :
    Word t ∧ s = leafOf t := by
  simp only [leaves, List.mem_cons, List.not_mem_nil, or_false] at isLeaf
  rcases isLeaf with rfl | rfl | rfl | rfl | rfl | rfl
  · obtain rfl : t = Symbol.kwTrue.spelling := hasLexeme
    exact ⟨Or.inr (by decide), by decide⟩
  · obtain rfl : t = Symbol.kwFalse.spelling := hasLexeme
    exact ⟨Or.inr (by decide), by decide⟩
  · obtain rfl : t = Symbol.kwNull.spelling := hasLexeme
    exact ⟨Or.inr (by decide), by decide⟩
  · have digits : IsDigits t := hasLexeme
    have all : (t.all fun b => decide (0x30 ≤ b ∧ b ≤ 0x39)) = true :=
      List.all_eq_true.mpr fun b here => decide_eq_true (digits.2 b here)
    have leaf := leafOf_of_digits digits []
    rw [List.append_nil, if_pos all] at leaf
    exact ⟨Or.inr digits.bare, leaf.symm⟩
  · have float : IsFloat t := hasLexeme
    refine ⟨Or.inr float.bare, ?_⟩
    obtain ⟨b, here, other⟩ := float.exists_not_digit
    have some : ¬ (t.all fun b => decide (0x30 ≤ b ∧ b ≤ 0x39)) = true :=
      fun all => other (of_decide_eq_true (List.all_eq_true.mp all b here))
    obtain ⟨d, f, e, digits, _, _, _, rfl⟩ := float
    rw [leafOf_of_digits digits, if_neg some]
  · have quoted : IsQuoted t := hasLexeme
    refine ⟨Or.inl quoted, ?_⟩
    obtain ⟨body, _, rfl⟩ := quoted
    rfl

/-! ## Trees -/

/-- The tokens of a tree were scanned and are in the places of their symbols. -/
inductive Legible : Expr → Prop where
  | literal {s : Symbol} {written t : Token} (isLeaf : s ∈ leaves) (scanned : Scanned s written)
      (made : leaf written = .literal t) : Legible (.literal t)
  | grouped {paren : Token} {inner : Expr} (scanned : Scanned .leftParen paren)
      (legible : Legible inner) : Legible (.grouped paren inner)
  | unary {s : Symbol} {op : Token} {right : Expr} (isOperator : s ∈ operators)
      (scanned : Scanned s op) (legible : Legible right) : Legible (.unary op right)
  | binary {s : Symbol} {left right : Expr} {op : Token} (isOperator : s ∈ operators)
      (scanned : Scanned s op) (legibleLeft : Legible left) (legibleRight : Legible right) :
      Legible (.binary left op right)
  | ternary {condition yes no : Expr} (legibleCondition : Legible condition)
      (legibleYes : Legible yes) (legibleNo : Legible no) :
      Legible (.ternary condition yes no)

theorem Spells.legible {e : Expr} {ts : List Token} (spells : Spells e ts) (shaped : Shaped e)
    (scanned : ∀ t ∈ ts, ∃ s, Scanned s t) : Legible e := by
  induction spells with
  | @literal written t kept =>
      cases shaped with
      | literal isLeaf valued =>
          rw [List.forall_mem_singleton] at scanned
          rw [← kept.kind_eq] at isLeaf
          obtain ⟨s, member, scannedLeaf⟩ :=
            exists_scanned_of_isOneOf (isOneOf_leaves_iff.mpr isLeaf) scanned
          exact .literal member scannedLeaf (kept.leaf_eq valued)
  | @grouped paren close inner ts spells closes ih =>
      cases shaped with
      | grouped opens shaped =>
          rw [List.cons_append, List.forall_mem_cons, List.forall_mem_append] at scanned
          obtain ⟨s, member, scannedParen⟩ :=
            exists_scanned_of_isOneOf (isOneOf_singleton.mpr opens) scanned.1
          rw [List.mem_singleton.mp member] at scannedParen
          exact .grouped scannedParen (ih shaped scanned.2.1)
  | @unary op right ts spells ih =>
      cases shaped with
      | unary isOperator _ shaped =>
          rw [List.forall_mem_cons] at scanned
          obtain ⟨s, member, scannedOp⟩ :=
            exists_scanned_of_isOneOf (isOneOf_unaryOperators_iff.mpr isOperator) scanned.1
          have subset : unaryOperators ⊆ operators := by decide
          exact .unary (subset member) scannedOp (ih shaped scanned.2)
  | @binary left right op ls rs _ _ ihLeft ihRight =>
      cases shaped with
      | binary level isOperator _ _ leftShaped rightShaped =>
          rw [List.forall_mem_append, List.forall_mem_cons] at scanned
          obtain ⟨s, member, scannedOp⟩ :=
            exists_scanned_of_isOneOf (Level.isOneOf_operators_iff.mpr isOperator) scanned.2.1
          exact .binary (level.operators_subset_operators member) scannedOp
            (ihLeft leftShaped scanned.1) (ihRight rightShaped scanned.2.2)
  | ternary _ _ _ _ _ ihCondition ihYes ihNo =>
      cases shaped with
      | ternary _ conditionShaped yesShaped noShaped =>
          simp only [List.forall_mem_append, List.forall_mem_cons] at scanned
          exact .ternary (ihCondition conditionShaped scanned.1.1)
            (ihYes yesShaped scanned.1.2.2) (ihNo noShaped scanned.2.2)

/-- The statements of a parse are legible, also if the text has errors. -/
theorem legible_of_mem_parseText {text : Text} {e : Expr}
    (member : e ∈ (parseText text).statements) : Legible e := by
  obtain ⟨before, pieces, tokens, spelled, _⟩ :=
    (run_parse Parser.new (scan newScanner text).tokens).layout
  obtain ⟨i, inside, rfl⟩ := List.getElem_of_mem member
  have bound : i < pieces.length := Nat.lt_of_lt_of_eq inside spelled.length_eq
  obtain ⟨spells, shaped⟩ := spelled.get inside bound
  refine spells.legible shaped fun t here => ?_
  have inTokens : t ∈ (scan newScanner text).tokens.filter (·.kind != TokenKind.comment) := by
    rw [tokens]
    apply List.mem_append_right
    apply List.mem_flatMap_of_mem (pieces.get_mem ⟨i, bound⟩)
    exact List.mem_append_left _ here
  exact exists_scanned (List.mem_of_mem_filter inTokens)

theorem toTextOnto_leaf {t : Token} (present : t.lexeme ≠ []) (behind : Text) :
    (leaf t).toTextOnto behind = t.lexeme ++ behind := by
  have written : t.lexeme.isEmpty = false := List.isEmpty_eq_false_iff.mpr present
  unfold leaf
  split
  · simp [Expr.toTextOnto, Expr.literalText, written]
  · split <;> simp [Expr.toTextOnto, Expr.literalText, written]

theorem unplaced_leaf (t : Token) : (leaf t).unplaced = leaf t.unplaced := by
  unfold leaf
  change _ = if t.kind = _ then _ else if t.kind = _ then _ else _
  split
  · rfl
  · split <;> rfl

/-- Where a text starts both with the text of `d` and with that of a legible expression, they end at
the same place, and the expressions differ in the places of their tokens at most. -/
def ReadsBack (d : Expr) : Prop :=
  ∀ e, Legible e → ∀ v w, EndsWord v → EndsWord w → d.toTextOnto v = e.toTextOnto w →
    d.unplaced = e.unplaced ∧ v = w

theorem endsWord_partsOnto (behind : Text) (es : List Expr) :
    EndsWord (Expr.partsOnto behind es) := by
  cases es with
  | nil => exact fun b front => Or.inr (Option.some_inj.mp front).symm
  | cons e es => exact fun b front => Or.inl (Option.some_inj.mp front).symm

/-- Parts are told apart by the space in front of each and the parenthesis behind the last. -/
theorem parts_readBack {ds es : List Expr} (readsBack : ∀ d ∈ ds, ReadsBack d)
    (legible : ∀ e ∈ es, Legible e) {v w : Text}
    (same : Expr.partsOnto v ds = Expr.partsOnto w es) :
    ds.map Expr.unplaced = es.map Expr.unplaced ∧ v = w := by
  induction ds generalizing es with
  | nil =>
      cases es with
      | nil => exact ⟨rfl, (List.cons.inj same).2⟩
      | cons e es => exact absurd (List.cons.inj same).1 (by decide)
  | cons d ds ih =>
      cases es with
      | nil => exact absurd (List.cons.inj same).1 (by decide)
      | cons e es =>
          rw [List.forall_mem_cons] at readsBack legible
          obtain ⟨first, behind⟩ := readsBack.1 e legible.1 _ _ (endsWord_partsOnto v ds)
            (endsWord_partsOnto w es) (List.cons.inj same).2
          obtain ⟨rest, last⟩ := ih readsBack.2 legible.2 behind
          rw [List.map_cons, List.map_cons, first, rest]
          exact ⟨rfl, last⟩

namespace Legible

variable {d e : Expr}

theorem bare_sign (legible : Legible e) (compound : e.children ≠ []) : Bare e.sign := by
  cases legible with
  | literal => exact absurd rfl compound
  | grouped _ _ => exact (by decide : Bare (Text.ofString "group"))
  | unary isOperator scanned _ => exact (scanned.operator_lexeme isOperator).1
  | binary isOperator scanned _ _ => exact (scanned.operator_lexeme isOperator).1
  | ternary _ _ _ => exact (by decide : Bare (Text.ofString "?:"))

theorem of_mem_children (legible : Legible e) : ∀ part ∈ e.children, Legible part := by
  cases legible with
  | literal => exact List.forall_mem_nil _
  | grouped _ inner => exact List.forall_mem_singleton.mpr inner
  | unary _ _ right => exact List.forall_mem_singleton.mpr right
  | binary _ _ left right =>
      exact List.forall_mem_cons.mpr ⟨left, List.forall_mem_singleton.mpr right⟩
  | ternary condition yes no =>
      exact List.forall_mem_cons.mpr ⟨condition, List.forall_mem_cons.mpr
        ⟨yes, List.forall_mem_singleton.mpr no⟩⟩

/-- The sign and the number of parts tell what an expression is.  The sign alone does not: the minus
can have one part or two. -/
theorem unplaced_eq_of_sign (first : Legible d) (second : Legible e) (compound : d.children ≠ [])
    (signs : d.sign = e.sign)
    (parts : d.children.map Expr.unplaced = e.children.map Expr.unplaced) :
    d.unplaced = e.unplaced := by
  have count : d.children.length = e.children.length := by
    simpa only [List.length_map] using congrArg List.length parts
  cases first with
  | literal => exact absurd rfl compound
  | @grouped paren inner scanned _ =>
      cases second with
      | grouped scanned' _ =>
          have parens := scanned.unplaced_eq scanned' (scanned.hasLexeme.trans
            scanned'.hasLexeme.symm)
          rw [Expr.unplaced, Expr.unplaced, parens, (List.cons.inj parts).1]
      | unary isOperator scanned' _ =>
          exact absurd signs.symm (scanned'.operator_lexeme isOperator).2
      | literal | binary | ternary => cases count
  | unary isOperator scanned _ =>
      cases second with
      | grouped _ _ => exact absurd signs (scanned.operator_lexeme isOperator).2
      | unary isOperator' scanned' _ =>
          have same := scanned.operator_unplaced_eq scanned' isOperator isOperator' signs
          rw [Expr.unplaced, Expr.unplaced, same, (List.cons.inj parts).1]
      | literal | binary | ternary => cases count
  | binary isOperator scanned _ _ =>
      cases second with
      | binary isOperator' scanned' _ _ =>
          have same := scanned.operator_unplaced_eq scanned' isOperator isOperator' signs
          obtain ⟨left, rest⟩ := List.cons.inj parts
          rw [Expr.unplaced, Expr.unplaced, same, left, (List.cons.inj rest).1]
      | literal | grouped | unary | ternary => cases count
  | ternary _ _ _ =>
      cases second with
      | ternary _ _ _ =>
          obtain ⟨condition, rest⟩ := List.cons.inj parts
          obtain ⟨yes, rest⟩ := List.cons.inj rest
          rw [Expr.unplaced, Expr.unplaced, condition, yes, (List.cons.inj rest).1]
      | literal | grouped | unary | binary => cases count

/-- An expression without parts is a literal. -/
theorem exists_leaf (legible : Legible e) (simple : e.children = []) :
    ∃ s ∈ leaves, ∃ t, Scanned s t ∧ leaf t = e := by
  cases legible with
  | @literal s t _ isLeaf scanned made => exact ⟨s, isLeaf, t, scanned, made⟩
  | _ => exact absurd simple (List.cons_ne_nil _ _)

theorem readsBack_leaf {s : Symbol} {t : Token} (isLeaf : s ∈ leaves) (scanned : Scanned s t) :
    ReadsBack (leaf t) := by
  obtain ⟨word, symbol⟩ := leaf_lexeme isLeaf scanned.hasLexeme
  intro e legible v w ends ends' same
  rw [toTextOnto_leaf word.ne_nil] at same
  by_cases compound : e.children = []
  · obtain ⟨s', isLeaf', t', scanned', rfl⟩ := legible.exists_leaf compound
    obtain ⟨word', symbol'⟩ := leaf_lexeme isLeaf' scanned'.hasLexeme
    rw [toTextOnto_leaf word'.ne_nil] at same
    obtain ⟨lexemes, behind⟩ := word.append_inj word' ends ends' same
    obtain rfl : s = s' := by rw [symbol, symbol', lexemes]
    rw [unplaced_leaf, unplaced_leaf, scanned.unplaced_eq scanned' lexemes]
    exact ⟨rfl, behind⟩
  · rw [Expr.toTextOnto_of_children compound] at same
    exact absurd same word.append_ne

theorem readsBack_of_children (legible : Legible d) (compound : d.children ≠ [])
    (readsBack : ∀ part ∈ d.children, ReadsBack part) : ReadsBack d := by
  intro e legible' v w _ _ same
  rw [Expr.toTextOnto_of_children compound] at same
  by_cases compound' : e.children = []
  · obtain ⟨s, isLeaf, t, scanned, rfl⟩ := legible'.exists_leaf compound'
    have word := (leaf_lexeme isLeaf scanned.hasLexeme).1
    rw [toTextOnto_leaf word.ne_nil] at same
    exact absurd same.symm word.append_ne
  · rw [Expr.toTextOnto_of_children compound'] at same
    obtain ⟨signs, parts⟩ := (legible.bare_sign compound).append_inj
      (legible'.bare_sign compound') (endsWord_partsOnto v _) (endsWord_partsOnto w _)
      (List.cons.inj same).2
    obtain ⟨unplaced, behind⟩ := parts_readBack readsBack legible'.of_mem_children parts
    exact ⟨legible.unplaced_eq_of_sign legible' compound signs unplaced, behind⟩

/-- The induction is over the first tree; the second one is taken apart along with it. -/
theorem readsBack (legible : Legible d) : ReadsBack d := by
  induction legible with
  | literal isLeaf scanned made =>
      rw [← made]
      exact readsBack_leaf isLeaf scanned
  | grouped scanned inner ih =>
      apply readsBack_of_children (.grouped scanned inner) (List.cons_ne_nil _ _)
      exact List.forall_mem_singleton.mpr ih
  | unary isOperator scanned right ih =>
      apply readsBack_of_children (.unary isOperator scanned right) (List.cons_ne_nil _ _)
      exact List.forall_mem_singleton.mpr ih
  | binary isOperator scanned left right ihLeft ihRight =>
      apply readsBack_of_children (.binary isOperator scanned left right) (List.cons_ne_nil _ _)
      exact List.forall_mem_cons.mpr ⟨ihLeft, List.forall_mem_singleton.mpr ihRight⟩
  | ternary condition yes no ihCondition ihYes ihNo =>
      apply readsBack_of_children (.ternary condition yes no) (List.cons_ne_nil _ _)
      exact List.forall_mem_cons.mpr ⟨ihCondition, List.forall_mem_cons.mpr
        ⟨ihYes, List.forall_mem_singleton.mpr ihNo⟩⟩

end Legible

/-- Two statements of parses, of whatever texts, with errors or without, have the same text if and
only if they are the same trees, with the same kinds of nodes and the same kinds, lexemes and values
of tokens, except for the places of the tokens. -/
theorem toText_eq_iff {t u : Text} {d e : Expr} (first : d ∈ (parseText t).statements)
    (second : e ∈ (parseText u).statements) :
    d.toText = e.toText ↔ d.unplaced = e.unplaced := by
  have legible := legible_of_mem_parseText first
  have legible' := legible_of_mem_parseText second
  constructor
  · intro same
    have nothing : EndsWord [] := nofun
    exact (legible.readsBack e legible' [] [] nothing nothing same).1
  · intro same
    rw [Expr.toText, Expr.toText, ← d.toTextOnto_unplaced, ← e.toTextOnto_unplaced, same]

/-- The texts `!") "` and `);! ") "`, the second of which has an error. -/
theorem toText_eq_iff_behind_error :
    ∃ d ∈ (parseText [0x21, 0x22, 0x29, 0x20, 0x22]).statements,
      ∃ e ∈ (parseText [0x29, 0x3B, 0x21, 0x20, 0x22, 0x29, 0x20, 0x22]).statements,
        d ≠ e ∧ d.toText = e.toText ∧ d.unplaced = e.unplaced := by
  have first : Expr.unary ⟨Symbol.bang.kind, [0x21], ⟨1, 1⟩, ⟨0, 1⟩, none⟩
      (.literal ⟨Symbol.string.kind, [0x22, 0x29, 0x20, 0x22], ⟨1, 2⟩, ⟨1, 5⟩,
        some (.text [0x29, 0x20])⟩) ∈
        (parseText [0x21, 0x22, 0x29, 0x20, 0x22]).statements := by
    decide +kernel
  have second : Expr.unary ⟨Symbol.bang.kind, [0x21], ⟨1, 3⟩, ⟨2, 3⟩, none⟩
      (.literal ⟨Symbol.string.kind, [0x22, 0x29, 0x20, 0x22], ⟨1, 5⟩, ⟨4, 8⟩,
        some (.text [0x29, 0x20])⟩) ∈
        (parseText [0x29, 0x3B, 0x21, 0x20, 0x22, 0x29, 0x20, 0x22]).statements := by
    decide +kernel
  exact ⟨_, first, _, second, by decide, by decide, (toText_eq_iff first second).mp (by decide)⟩

end Lox

end FrontEnd
