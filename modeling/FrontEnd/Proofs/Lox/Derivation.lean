import FrontEnd.Proofs.Lox.Spelling

/-!
# The grammar of Lox, on kinds of tokens

`Derives phrase ks` says that the kinds `ks` can be derived from a phrase of the grammar, and
`DerivesProgram ks` that they are a program: expressions, each with an optional semicolon behind it.

What can be derived as an expression is exactly what some well-shaped expression is written as
(`derives_iff_written`).  The grammar of programs is ambiguous, since a minus may continue one
statement or start the next one.  Nothing hangs on it: an expression goes on with any expression
that starts with a minus (`Derives.append_minus`), so in every program one can find a first
statement behind which no minus stands (`DerivesProgram.first_statement`).
-/

namespace FrontEnd

namespace Lox

/-- The phrases of the grammar. -/
inductive Phrase where
  | ternary
  | equality
  | comparison
  | term
  | factor
  | unary
  | primary
  /-- Any number of operands of a kind, with one of some operators in front of each. -/
  | repeated (operators : List Symbol) (operand : Phrase)

/-- What can be derived from a phrase. -/
inductive Derives : Phrase → List TokenKind → Prop where
  | condition {cs : List TokenKind} (condition : Derives .equality cs) : Derives .ternary cs
  | choice {cs ys ns : List TokenKind} (condition : Derives .equality cs)
      (yes : Derives .ternary ys) (no : Derives .ternary ns) :
      Derives .ternary (cs ++ Symbol.question.kind :: ys ++ Symbol.colon.kind :: ns)
  | equality {ks more : List TokenKind} (first : Derives .comparison ks)
      (others : Derives (.repeated [.bangEqual, .equalEqual] .comparison) more) :
      Derives .equality (ks ++ more)
  | comparison {ks more : List TokenKind} (first : Derives .term ks)
      (others : Derives (.repeated [.greater, .greaterEqual, .less, .lessEqual] .term) more) :
      Derives .comparison (ks ++ more)
  | term {ks more : List TokenKind} (first : Derives .factor ks)
      (others : Derives (.repeated [.minus, .plus] .factor) more) : Derives .term (ks ++ more)
  | factor {ks more : List TokenKind} (first : Derives .unary ks)
      (others : Derives (.repeated [.star, .slash, .caret] .unary) more) :
      Derives .factor (ks ++ more)
  | operator {op : Symbol} {ks : List TokenKind} (isOperator : op ∈ [Symbol.bang, .minus])
      (right : Derives .unary ks) : Derives .unary (op.kind :: ks)
  | primary {ks : List TokenKind} (primary : Derives .primary ks) : Derives .unary ks
  | leaf {s : Symbol}
      (isLeaf : s ∈ [Symbol.integer, .float, .string, .kwTrue, .kwFalse, .kwNull]) :
      Derives .primary [s.kind]
  | group {ks : List TokenKind} (inner : Derives .ternary ks) :
      Derives .primary (Symbol.leftParen.kind :: ks ++ [Symbol.rightParen.kind])
  | done {operators : List Symbol} {operand : Phrase} : Derives (.repeated operators operand) []
  | again {operators : List Symbol} {operand : Phrase} {op : Symbol}
      {ks more : List TokenKind} (isOperator : op ∈ operators) (next : Derives operand ks)
      (others : Derives (.repeated operators operand) more) :
      Derives (.repeated operators operand) (op.kind :: ks ++ more)

/-- The programs: expressions, each with an optional semicolon behind it. -/
inductive DerivesProgram : List TokenKind → Prop where
  | empty : DerivesProgram []
  | statement {ks rest : List TokenKind} (expression : Derives .ternary ks)
      (others : DerivesProgram rest) : DerivesProgram (ks ++ rest)
  | terminated {ks rest : List TokenKind} (expression : Derives .ternary ks)
      (others : DerivesProgram rest) : DerivesProgram (ks ++ Symbol.semicolon.kind :: rest)

/-! ## Levels of the grammar -/

namespace Phrase

/-- The phrase of a level. -/
def ofLevel : Level → Phrase
  | .equality => .equality
  | .comparison => .comparison
  | .term => .term
  | .factor => .factor

/-- The operands of a level. -/
def operand : Level → Phrase
  | .equality => .comparison
  | .comparison => .term
  | .term => .factor
  | .factor => .unary

/-- What follows the first operand of a level. -/
def others (level : Level) : Phrase := .repeated level.operators (operand level)

/-- The phrase for expressions that bind no more loosely than a rank allows. -/
def ofRank : Nat → Phrase
  | 0 => .unary
  | 1 => .factor
  | 2 => .term
  | 3 => .comparison
  | 4 => .equality
  | _ => .ternary

theorem ofRank_level (level : Level) : ofRank level.rank = ofLevel level := by
  cases level <;> rfl

theorem ofRank_operand (level : Level) : ofRank (level.rank - 1) = operand level := by
  cases level <;> rfl

end Phrase

namespace Derives

variable {level : Level} {op : Symbol} {ks ls more others : List TokenKind}

theorem level_intro (first : Derives (.operand level) ks)
    (repeated : Derives (.others level) more) : Derives (.ofLevel level) (ks ++ more) := by
  cases level with
  | equality => exact .equality first repeated
  | comparison => exact .comparison first repeated
  | term => exact .term first repeated
  | factor => exact .factor first repeated

theorem level_elim (derives : Derives (.ofLevel level) ls) :
    ∃ ks more, ls = ks ++ more ∧ Derives (.operand level) ks ∧
      Derives (.others level) more := by
  cases level with
  | equality =>
      cases derives with
      | equality first others => exact ⟨_, _, rfl, first, others⟩
  | comparison =>
      cases derives with
      | comparison first others => exact ⟨_, _, rfl, first, others⟩
  | term =>
      cases derives with
      | term first others => exact ⟨_, _, rfl, first, others⟩
  | factor =>
      cases derives with
      | factor first others => exact ⟨_, _, rfl, first, others⟩

theorem of_operand (first : Derives (.operand level) ks) : Derives (.ofLevel level) ks := by
  have alone := first.level_intro .done
  rwa [List.append_nil] at alone

/-- A repetition goes on with a repetition. -/
theorem repeated_append {operators : List Symbol} {operand : Phrase}
    (repeated : Derives (.repeated operators operand) more)
    (further : Derives (.repeated operators operand) others) :
    Derives (.repeated operators operand) (more ++ others) := by
  generalize same : Phrase.repeated operators operand = phrase at repeated
  induction repeated with
  | done =>
      obtain ⟨rfl, rfl⟩ := Phrase.repeated.inj same
      exact further
  | again isOperator next _ _ ih =>
      obtain ⟨rfl, rfl⟩ := Phrase.repeated.inj same
      rw [List.append_assoc]
      exact .again isOperator next (ih rfl)
  | _ => cases same

theorem level_append (derives : Derives (.ofLevel level) ks)
    (further : Derives (.others level) others) : Derives (.ofLevel level) (ks ++ others) := by
  obtain ⟨first, more, rfl, firstDerives, repeated⟩ := derives.level_elim
  rw [List.append_assoc]
  exact firstDerives.level_intro (repeated.repeated_append further)

theorem binary (left : Derives (.ofLevel level) ls) (isOperator : op ∈ level.operators)
    (right : Derives (.operand level) ks) :
    Derives (.ofLevel level) (ls ++ op.kind :: ks) := by
  have once : Derives (.others level) (op.kind :: ks ++ []) := .again isOperator right .done
  rw [List.append_nil] at once
  exact left.level_append once

/-- A looser phrase derives what a tighter one does. -/
theorem climb {bound looser : Nat} (derives : Derives (.ofRank bound) ks)
    (le : bound ≤ looser) : Derives (.ofRank looser) ks := by
  induction le with
  | refl => exact derives
  | @step looser _ ih =>
      match looser with
      | 0 => exact @of_operand .factor ks ih
      | 1 => exact @of_operand .term ks ih
      | 2 => exact @of_operand .comparison ks ih
      | 3 => exact @of_operand .equality ks ih
      | 4 => exact .condition ih
      | _ + 5 => exact ih

end Derives

/-! ## Derivations and written expressions -/

theorem Shaped.derives {e : Expr} (shaped : Shaped e) :
    ∀ ts, Spells e ts → Derives (.ofRank (rank e)) (ts.map Token.kind) := by
  induction shaped with
  | literal isLeaf _ =>
      intro ts spells
      cases spells with
      | literal kept =>
          obtain ⟨s, member, known⟩ := isOneOf_iff.mp (isOneOf_leaves_iff.mpr isLeaf)
          rw [List.map_singleton, kept.kind_eq, known]
          exact .primary (.leaf (by revert member; cases s <;> decide))
  | grouped opens shaped ih =>
      intro ts spells
      cases spells with
      | grouped spells closes =>
          have inner : Derives .ternary _ := (ih _ spells).climb shaped.rank_le
          simp only [List.cons_append, List.map_cons, List.map_append, List.map_nil, opens, closes]
          exact .primary (.group inner)
  | unary isOperator tight _ ih =>
      intro ts spells
      cases spells with
      | unary spells =>
          have right := ih _ spells
          rw [tight] at right
          obtain ⟨s, member, known⟩ := isOneOf_iff.mp (isOneOf_unaryOperators_iff.mpr isOperator)
          rw [List.map_cons, known]
          exact .operator member right
  | binary level isOperator leftRank rightRank _ _ ihLeft ihRight =>
      intro ts spells
      cases spells with
      | binary spellsLeft spellsRight =>
          have left := (ihLeft _ spellsLeft).climb leftRank
          have right := (ihRight _ spellsRight).climb (Nat.le_sub_one_of_lt rightRank)
          rw [Phrase.ofRank_level] at left
          rw [Phrase.ofRank_operand] at right
          obtain ⟨s, member, known⟩ :=
            isOneOf_iff.mp (Level.isOneOf_operators_iff.mpr isOperator)
          rw [rank_binary isOperator, Phrase.ofRank_level, List.map_append, List.map_cons, known]
          exact left.binary member right
  | ternary tight _ yesShaped noShaped ihCondition ihYes ihNo =>
      intro ts spells
      cases spells with
      | ternary spellsCondition asks spellsYes divides spellsNo =>
          have condition : Derives .equality _ :=
            (ihCondition _ spellsCondition).climb (Nat.le_of_lt_succ tight)
          have yes : Derives .ternary _ := (ihYes _ spellsYes).climb yesShaped.rank_le
          have no : Derives .ternary _ := (ihNo _ spellsNo).climb noShaped.rank_le
          simp only [List.map_append, List.map_cons, asks, divides]
          exact .choice condition yes no

/-- What some tokens must be for their kinds to be derived from a phrase. -/
def Phrase.Realizes : Phrase → List Token → Prop
  | .ternary, ts => ∃ e, Written conditionalRank e ts
  | .equality, ts => ∃ e, Written Level.equality.rank e ts
  | .comparison, ts => ∃ e, Written Level.comparison.rank e ts
  | .term, ts => ∃ e, Written Level.term.rank e ts
  | .factor, ts => ∃ e, Written Level.factor.rank e ts
  | .unary, ts => ∃ e, Written 0 e ts
  | .primary, ts => ∃ e, Written 0 e ts
  | .repeated operators operand, ts =>
    ∀ level : Level, level.operators = operators → Phrase.operand level = operand →
      ∀ left ls, Written level.rank left ls → ∃ e, Written level.rank e (ls ++ ts)

theorem Phrase.realizes_operand {level : Level} {ts : List Token} :
    (Phrase.operand level).Realizes ts ↔ ∃ e, Written (level.rank - 1) e ts := by
  cases level <;> exact Iff.rfl

theorem Phrase.realizes_level (level : Level) {ks more : List TokenKind}
    (operand : ∀ ts : List Token, ts.map Token.kind = ks → (Phrase.operand level).Realizes ts)
    (repeated : ∀ ts : List Token, ts.map Token.kind = more →
      (Phrase.others level).Realizes ts)
    (ts : List Token) (kinds : ts.map Token.kind = ks ++ more) :
    ∃ e, Written level.rank e ts := by
  obtain ⟨first, others, rfl, firstKinds, othersKinds⟩ := List.map_eq_append_iff.mp kinds
  obtain ⟨left, written⟩ := Phrase.realizes_operand.mp (operand first firstKinds)
  exact repeated others othersKinds level rfl rfl left first (written.mono (Nat.sub_le _ _))

/-- Tokens whose kinds can be derived write an expression down.  The operators of a repetition
collect their operands to the left, so a repetition is realized behind any left operand. -/
theorem Derives.realizes {phrase : Phrase} {ks : List TokenKind} (derives : Derives phrase ks) :
    ∀ ts : List Token, ts.map Token.kind = ks → phrase.Realizes ts := by
  induction derives with
  | condition _ ih =>
      intro ts kinds
      obtain ⟨e, written⟩ := ih ts kinds
      exact ⟨e, written.mono (by decide)⟩
  | choice _ _ _ ihCondition ihYes ihNo =>
      intro ts kinds
      obtain ⟨front, rest, rfl, frontKinds, restKinds⟩ := List.map_eq_append_iff.mp kinds
      obtain ⟨cs, rest', rfl, csKinds, rest'Kinds⟩ := List.map_eq_append_iff.mp frontKinds
      obtain ⟨question, ys, rfl, asks, ysKinds⟩ := List.map_eq_cons_iff.mp rest'Kinds
      obtain ⟨colon, ns, rfl, divides, nsKinds⟩ := List.map_eq_cons_iff.mp restKinds
      obtain ⟨condition, writtenCondition⟩ := ihCondition cs csKinds
      obtain ⟨yes, writtenYes⟩ := ihYes ys ysKinds
      obtain ⟨no, writtenNo⟩ := ihNo ns nsKinds
      exact ⟨_, writtenCondition.ternary asks writtenYes divides writtenNo⟩
  | equality _ _ ih ihOthers => exact Phrase.realizes_level .equality ih ihOthers
  | comparison _ _ ih ihOthers => exact Phrase.realizes_level .comparison ih ihOthers
  | term _ _ ih ihOthers => exact Phrase.realizes_level .term ih ihOthers
  | factor _ _ ih ihOthers => exact Phrase.realizes_level .factor ih ihOthers
  | operator isOperator _ ih =>
      intro ts kinds
      obtain ⟨op, rest, rfl, opKind, restKinds⟩ := List.map_eq_cons_iff.mp kinds
      obtain ⟨e, written⟩ := ih rest restKinds
      exact ⟨_, written.unary (isOneOf_iff.mpr ⟨_, isOperator, opKind⟩)⟩
  | primary _ ih => exact ih
  | @leaf s isLeaf =>
      intro ts kinds
      obtain ⟨t, rest, rfl, tKind, restKinds⟩ := List.map_eq_cons_iff.mp kinds
      obtain rfl := List.map_eq_nil_iff.mp restKinds
      have member : s ∈ leaves := by
        revert isLeaf
        cases s <;> decide
      exact ⟨_, Written.leaf (isOneOf_iff.mpr ⟨s, member, tKind⟩)⟩
  | group _ ih =>
      intro ts kinds
      obtain ⟨front, rest, rfl, frontKinds, restKinds⟩ := List.map_eq_append_iff.mp kinds
      obtain ⟨paren, inner, rfl, opens, innerKinds⟩ := List.map_eq_cons_iff.mp frontKinds
      obtain ⟨close, nothing, rfl, closes, nothingKinds⟩ := List.map_eq_cons_iff.mp restKinds
      obtain rfl := List.map_eq_nil_iff.mp nothingKinds
      obtain ⟨e, written⟩ := ih inner innerKinds
      exact ⟨_, Written.grouped opens written closes⟩
  | done =>
      intro ts kinds level _ _ left ls written
      obtain rfl := List.map_eq_nil_iff.mp kinds
      rw [List.append_nil]
      exact ⟨left, written⟩
  | again isOperator _ _ ih ihOthers =>
      intro ts kinds level sameOperators sameOperand left ls written
      obtain ⟨front, others, rfl, frontKinds, othersKinds⟩ := List.map_eq_append_iff.mp kinds
      obtain ⟨op, next, rfl, opKind, nextKinds⟩ := List.map_eq_cons_iff.mp frontKinds
      subst sameOperators sameOperand
      obtain ⟨right, writtenRight⟩ := Phrase.realizes_operand.mp (ih next nextKinds)
      have grown := written.binary (isOneOf_iff.mpr ⟨_, isOperator, opKind⟩) writtenRight
      obtain ⟨e, whole⟩ := ihOthers others othersKinds level rfl rfl _ _ grown
      refine ⟨e, ?_⟩
      simpa using whole

/-- The expressions of the grammar are those that some tree is written as. -/
theorem derives_iff_written {ts : List Token} :
    Derives .ternary (ts.map Token.kind) ↔ ∃ e, Written conditionalRank e ts := by
  constructor
  · intro derives
    exact derives.realizes ts rfl
  · rintro ⟨e, written⟩
    exact (written.shaped.derives ts written.spells).climb written.rank_le

/-! ## A minus between two expressions -/

theorem Derives.ternary_ne_nil {ks : List TokenKind} (derives : Derives .ternary ks) :
    ks ≠ [] := by
  rintro rfl
  have kinds : Derives .ternary ([].map Token.kind) := derives
  obtain ⟨e, written⟩ := derives_iff_written.mp kinds
  exact written.spells.ne_nil rfl

theorem Derives.operand_ne_nil {level : Level} {ks : List TokenKind}
    (derives : Derives (.operand level) ks) : ks ≠ [] := by
  rw [← Phrase.ofRank_operand] at derives
  have tighter : level.rank - 1 ≤ conditionalRank := by cases level <;> decide
  have loosest : Derives .ternary ks := derives.climb tighter
  exact loosest.ternary_ne_nil

/-- A phrase goes on with itself where that starts with a minus. -/
def GoesOnWithMinus (phrase : Phrase) : Prop :=
  ∀ ks ls, Derives phrase ks → Derives phrase (Symbol.minus.kind :: ls) →
    Derives phrase (ks ++ Symbol.minus.kind :: ls)

theorem Derives.unary_minus {us ls rest : List TokenKind} (derives : Derives .unary us)
    (starts : Symbol.minus.kind :: ls = us ++ rest) :
    ∃ vs, us = Symbol.minus.kind :: vs ∧ Derives .unary vs := by
  cases derives with
  | operator isOperator right =>
      rw [List.cons_append, List.cons.injEq] at starts
      rw [← starts.1]
      exact ⟨_, rfl, right⟩
  | primary primary =>
      cases primary with
      | leaf isLeaf =>
          rw [List.cons_append, List.cons.injEq] at starts
          rw [← Symbol.kind_inj.mp starts.1] at isLeaf
          exact absurd isLeaf (by decide)
      | group _ =>
          rw [List.cons_append, List.cons_append, List.cons.injEq] at starts
          exact absurd (Symbol.kind_inj.mp starts.1) (by decide)

/-- The minus in front of a term is as good as one behind an operand of a term. -/
theorem goesOnWithMinus_term : GoesOnWithMinus .term := by
  intro ks ls derives further
  obtain ⟨fs, more, split, factor, others⟩ := @Derives.level_elim .term _ further
  obtain ⟨us, rest, rfl, unary, repeated⟩ := @Derives.level_elim .factor _ factor
  rw [List.append_assoc] at split
  obtain ⟨vs, rfl, right⟩ := unary.unary_minus split
  -- Without the minus the first operand of the second term is an operand behind a minus.
  have operand : Derives (.operand .term) (vs ++ rest) :=
    @Derives.level_intro .factor _ _ right repeated
  have again : Derives (.others .term) (Symbol.minus.kind :: (vs ++ rest) ++ more) :=
    .again (by decide) operand others
  rw [split]
  have whole : Derives .term _ := @Derives.level_append .term _ _ derives again
  simpa using whole

theorem Derives.repeated_append_operand {operators : List Symbol} {operand : Phrase}
    {more zs : List TokenKind} (repeated : Derives (.repeated operators operand) more)
    (present : more ≠ []) (extend : ∀ os, Derives operand os → Derives operand (os ++ zs)) :
    Derives (.repeated operators operand) (more ++ zs) := by
  generalize same : Phrase.repeated operators operand = phrase at repeated
  induction repeated with
  | done => exact absurd rfl present
  | @again _ _ _ ks more isOperator next others _ ih =>
      obtain ⟨rfl, rfl⟩ := Phrase.repeated.inj same
      by_cases last : more = []
      · rw [last, List.append_nil, List.cons_append]
        have alone := Derives.again isOperator (extend _ next) .done
        rwa [List.append_nil] at alone
      · rw [List.append_assoc]
        exact .again isOperator next (ih last rfl)
  | _ => cases same

/-- The last operand of a level takes in whatever operands of the level take in. -/
theorem Derives.level_append_operand {level : Level} {ks zs : List TokenKind}
    (derives : Derives (.ofLevel level) ks)
    (extend : ∀ os, Derives (.operand level) os → Derives (.operand level) (os ++ zs)) :
    Derives (.ofLevel level) (ks ++ zs) := by
  obtain ⟨first, more, rfl, operand, others⟩ := derives.level_elim
  by_cases alone : more = []
  · rw [alone, List.append_nil]
    exact (extend first operand).of_operand
  · rw [List.append_assoc]
    exact operand.level_intro (others.repeated_append_operand alone extend)

theorem GoesOnWithMinus.level {level : Level} (below : GoesOnWithMinus (.operand level)) :
    GoesOnWithMinus (.ofLevel level) := by
  intro ks ls derives further
  obtain ⟨first, more, split, operand, others⟩ := further.level_elim
  obtain ⟨k, rest, rfl⟩ := List.exists_cons_of_ne_nil operand.operand_ne_nil
  rw [List.cons_append, List.cons.injEq] at split
  obtain ⟨rfl, rfl⟩ := split
  have extended := derives.level_append_operand fun os isOperand =>
    below os rest isOperand operand
  have whole := extended.level_append others
  simpa using whole

theorem goesOnWithMinus_equality : GoesOnWithMinus .equality := by
  have comparison : GoesOnWithMinus .comparison := @GoesOnWithMinus.level .comparison
    goesOnWithMinus_term
  exact @GoesOnWithMinus.level .equality comparison

theorem Derives.equality_append_minus {ks ls : List TokenKind} (derives : Derives .equality ks)
    (further : Derives .ternary (Symbol.minus.kind :: ls)) :
    Derives .ternary (ks ++ Symbol.minus.kind :: ls) := by
  generalize split : Symbol.minus.kind :: ls = zs at further ⊢
  cases further with
  | condition equality =>
      subst split
      exact .condition (goesOnWithMinus_equality _ _ derives equality)
  | @choice cs ys ns condition yes no =>
      have present := (Derives.condition condition).ternary_ne_nil
      obtain ⟨k, rest, rfl⟩ := List.exists_cons_of_ne_nil present
      rw [List.append_assoc, List.cons_append, List.cons.injEq] at split
      obtain ⟨rfl, _⟩ := split
      have extended := goesOnWithMinus_equality _ _ derives condition
      have whole := Derives.choice extended yes no
      simpa using whole

/-- An expression goes on with any expression that starts with a minus. -/
theorem Derives.append_minus {ks ls : List TokenKind} (derives : Derives .ternary ks)
    (further : Derives .ternary (Symbol.minus.kind :: ls)) :
    Derives .ternary (ks ++ Symbol.minus.kind :: ls) := by
  generalize same : Phrase.ternary = phrase at derives
  induction derives with
  | condition equality => exact same ▸ equality.equality_append_minus further
  | choice condition yes _ _ _ ih =>
      rw [List.append_assoc]
      exact .choice condition yes (ih rfl)
  | _ => cases same

/-- A program that is not empty has a first statement that no minus follows. -/
theorem DerivesProgram.first_statement {ks : List TokenKind} (program : DerivesProgram ks) :
    ks = [] ∨ ∃ first rest, Derives .ternary first ∧ DerivesProgram rest ∧
      (ks = first ++ Symbol.semicolon.kind :: rest ∨
        ks = first ++ rest ∧ rest.head? ≠ some Symbol.minus.kind) := by
  induction program with
  | empty => exact Or.inl rfl
  | terminated expression others _ => exact Or.inr ⟨_, _, expression, others, Or.inl rfl⟩
  | @statement ks rest expression others ih =>
      right
      by_cases minus : rest.head? = some Symbol.minus.kind
      -- A first statement of the rest that starts with a minus is taken in by this expression.
      · rcases ih with rfl | ⟨first, behind, derives, program, split⟩
        · cases minus
        · obtain ⟨k, ls, rfl⟩ := List.exists_cons_of_ne_nil derives.ternary_ne_nil
          have starts : k = Symbol.minus.kind := by
            rcases split with rfl | ⟨rfl, _⟩ <;> simpa using minus
          subst starts
          refine ⟨_, behind, expression.append_minus derives, program, ?_⟩
          rcases split with rfl | ⟨rfl, noMinus⟩
          · left
            simp
          · right
            exact ⟨by simp, noMinus⟩
      · exact ⟨ks, rest, expression, others, Or.inr ⟨rfl, minus⟩⟩

end Lox

end FrontEnd
