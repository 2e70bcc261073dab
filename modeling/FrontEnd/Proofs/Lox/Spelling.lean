import FrontEnd.Proofs.Lox.Kinds

/-!
# Expressions and their spellings

`Spells e ts` says that the tokens `ts` write the expression `e` down in infix form.  A tree
keeps its operands, its operators and its opening parentheses, so these tokens are given; the
closing parentheses and the two marks of a conditional expression are not kept, and any tokens
of the right kinds will do.

`Shaped e` says that a tree is built as the precedence of its operators demands: an operand
that binds more loosely than the operator it belongs to stands in parentheses, and operators of
one level are grouped to the left.  Which operators are of one level is said here by the kinds of
their tokens, apart from the readers.  Together the two relations describe which tokens are an
expression, and which one.
-/

namespace FrontEnd

namespace Lox

/-- The kinds of the operators of a level. -/
def Level.kinds : Level → List TokenKind
  | .equality => [Symbol.bangEqual.kind, Symbol.equalEqual.kind]
  | .comparison =>
    [Symbol.greater.kind, Symbol.greaterEqual.kind, Symbol.less.kind, Symbol.lessEqual.kind]
  | .term => [Symbol.minus.kind, Symbol.plus.kind]
  | .factor => [Symbol.star.kind, Symbol.slash.kind, Symbol.caret.kind]

/-- The kinds of the operators with one operand. -/
def unaryKinds : List TokenKind := [Symbol.bang.kind, Symbol.minus.kind]

/-- The kinds of the tokens that are expressions by themselves. -/
def leafKinds : List TokenKind :=
  [Symbol.kwTrue.kind, Symbol.kwFalse.kind, Symbol.kwNull.kind, Symbol.integer.kind,
    Symbol.float.kind, Symbol.string.kind]

theorem Level.isOneOf_operators_iff {level : Level} {op : Token} :
    isOneOf level.operators op = true ↔ op.kind ∈ level.kinds := by
  rw [isOneOf_iff_mem_map]
  cases level <;> exact Iff.rfl

theorem isOneOf_unaryOperators_iff {op : Token} :
    isOneOf unaryOperators op = true ↔ op.kind ∈ unaryKinds := isOneOf_iff_mem_map

theorem isOneOf_leaves_iff {t : Token} : isOneOf leaves t = true ↔ t.kind ∈ leafKinds :=
  isOneOf_iff_mem_map

/-- The level of an operator with two operands. -/
def Level.ofOperator? (op : Token) : Option Level :=
  [Level.equality, .comparison, .term, .factor].find? fun level => op.kind ∈ level.kinds

theorem Level.ofOperator?_eq_some {level : Level} {op : Token} (known : op.kind ∈ level.kinds) :
    Level.ofOperator? op = some level := by
  have found : (Level.ofOperator? op).isSome = true := by
    rw [Level.ofOperator?, List.find?_isSome]
    exact ⟨level, by cases level <;> decide, decide_eq_true known⟩
  obtain ⟨other, same⟩ := Option.isSome_iff_exists.mp found
  rw [same]
  rw [Level.ofOperator?] at same
  have there := List.find?_some same
  rw [decide_eq_true_eq] at there
  rw [Level.eq_of_isOneOf (Level.isOneOf_operators_iff.mpr known)
    (Level.isOneOf_operators_iff.mpr there)]

/-- The rank of a conditional expression, which binds more loosely than all others. -/
def conditionalRank : Nat := 5

/-- How loosely the outermost operator of an expression binds.  Literals, parentheses and
operators with one operand come first, then the levels, then conditional expressions. -/
def rank : Expr → Nat
  | .binary _ op _ => (Level.ofOperator? op).elim 0 Level.rank
  | .ternary _ _ _ => conditionalRank
  | _ => 0

theorem rank_binary {level : Level} {left right : Expr} {op : Token}
    (isOperator : op.kind ∈ level.kinds) : rank (.binary left op right) = level.rank := by
  rw [rank, Level.ofOperator?_eq_some isOperator, Option.elim_some]

/-- The tokens `true` and `false` hold their values. -/
structure Valued (t : Token) : Prop where
  onTrue : t.kind = Symbol.kwTrue.kind → t.literal = some (.boolean true)
  onFalse : t.kind = Symbol.kwFalse.kind → t.literal = some (.boolean false)

/-- The expressions that follow the precedence of their operators. -/
inductive Shaped : Expr → Prop where
  | literal {t : Token} (isLeaf : t.kind ∈ leafKinds) (valued : Valued t) :
      Shaped (.literal t)
  | grouped {paren : Token} {inner : Expr} (opens : paren.kind = Symbol.leftParen.kind)
      (shaped : Shaped inner) : Shaped (.grouped paren inner)
  | unary {op : Token} {right : Expr} (isOperator : op.kind ∈ unaryKinds)
      (tight : rank right = 0) (shaped : Shaped right) : Shaped (.unary op right)
  | binary {left right : Expr} {op : Token} (level : Level)
      (isOperator : op.kind ∈ level.kinds) (leftRank : rank left ≤ level.rank)
      (rightRank : rank right < level.rank) (leftShaped : Shaped left)
      (rightShaped : Shaped right) : Shaped (.binary left op right)
  | ternary {condition yes no : Expr} (tight : rank condition < conditionalRank)
      (conditionShaped : Shaped condition) (yesShaped : Shaped yes) (noShaped : Shaped no) :
      Shaped (.ternary condition yes no)

/-- A token as it was written and as a tree keeps it.  They are the same, except that a tree
gives `true` and `false` their values. -/
def KeptAs (written kept : Token) : Prop :=
  written = kept ∨
    (written.kind = Symbol.kwTrue.kind ∨ written.kind = Symbol.kwFalse.kind) ∧
      { written with literal := kept.literal } = kept

/-- The tokens that write an expression down in infix form. -/
inductive Spells : Expr → List Token → Prop where
  | literal {written t : Token} (kept : KeptAs written t) : Spells (.literal t) [written]
  | grouped {paren close : Token} {inner : Expr} {ts : List Token} (spells : Spells inner ts)
      (closes : close.kind = Symbol.rightParen.kind) :
      Spells (.grouped paren inner) (paren :: ts ++ [close])
  | unary {op : Token} {right : Expr} {ts : List Token} (spells : Spells right ts) :
      Spells (.unary op right) (op :: ts)
  | binary {left right : Expr} {op : Token} {ls rs : List Token} (spellsLeft : Spells left ls)
      (spellsRight : Spells right rs) : Spells (.binary left op right) (ls ++ op :: rs)
  | ternary {condition yes no : Expr} {question colon : Token} {cs ys ns : List Token}
      (spellsCondition : Spells condition cs) (asks : question.kind = Symbol.question.kind)
      (spellsYes : Spells yes ys) (divides : colon.kind = Symbol.colon.kind)
      (spellsNo : Spells no ns) :
      Spells (.ternary condition yes no) (cs ++ question :: ys ++ colon :: ns)

theorem KeptAs.kind_eq {written kept : Token} (keeps : KeptAs written kept) :
    written.kind = kept.kind := by
  rcases keeps with rfl | ⟨_, same⟩
  · rfl
  · rw [← same]

theorem KeptAs.with_literal {written kept : Token} (keeps : KeptAs written kept) :
    { written with literal := kept.literal } = kept := by
  rcases keeps with rfl | ⟨_, same⟩
  · rfl
  · exact same

/-- A leaf of a tree keeps the token it was made from. -/
theorem exists_leaf_eq (written : Token) :
    ∃ t, leaf written = .literal t ∧ KeptAs written t ∧ Valued t := by
  unfold leaf
  split
  · rename_i isTrue
    refine ⟨_, rfl, Or.inr ⟨Or.inl isTrue, rfl⟩, fun _ => rfl, ?_⟩
    intro isFalse
    exact absurd (Symbol.kind_inj.mp (isTrue.symm.trans isFalse)) (by decide)
  · rename_i notTrue
    split
    · rename_i isFalse
      refine ⟨_, rfl, Or.inr ⟨Or.inr isFalse, rfl⟩, ?_, fun _ => rfl⟩
      intro isTrue
      exact absurd isTrue notTrue
    · rename_i notFalse
      exact ⟨written, rfl, Or.inl rfl, fun isTrue => absurd isTrue notTrue,
        fun isFalse => absurd isFalse notFalse⟩

/-- A token determines the leaf that keeps it. -/
theorem KeptAs.leaf_eq {written kept : Token} (keeps : KeptAs written kept)
    (valued : Valued kept) : leaf written = .literal kept := by
  have same := keeps.with_literal
  unfold leaf
  split
  · rename_i isTrue
    rw [← valued.onTrue (keeps.kind_eq.symm.trans isTrue), same]
  · rename_i notTrue
    split
    · rename_i isFalse
      rw [← valued.onFalse (keeps.kind_eq.symm.trans isFalse), same]
    · rename_i notFalse
      rcases keeps with rfl | ⟨boolean, _⟩
      · rfl
      · rcases boolean with isTrue | isFalse
        · exact absurd isTrue notTrue
        · exact absurd isFalse notFalse

/-- The symbols with which expressions start. -/
def starters : List Symbol := unaryOperators ++ leaves ++ [.leftParen]

/-- The symbols with which expressions go on behind an operand. -/
def continuations : List Symbol :=
  .question :: Level.equality.operators ++ Level.comparison.operators
    ++ Level.term.operators ++ Level.factor.operators

theorem Level.operators_subset (level : Level) : level.operators ⊆ continuations := by
  cases level <;> decide

/-- The symbols that occur in expressions. -/
def expressionSymbols : List Symbol := starters ++ [.rightParen, .colon] ++ continuations

theorem Spells.ne_nil {e : Expr} {ts : List Token} (spells : Spells e ts) : ts ≠ [] := by
  cases spells <;> simp

/-- An expression starts with one of the starters. -/
theorem Spells.next_isOneOf {e : Expr} {ts : List Token} (spells : Spells e ts)
    (shaped : Shaped e) : nextIsOneOf starters ts = true := by
  induction spells with
  | literal kept =>
      cases shaped with
      | literal isLeaf _ =>
          obtain ⟨s, member, known⟩ := isOneOf_iff.mp (isOneOf_leaves_iff.mpr isLeaf)
          rw [nextIsOneOf_cons, isOneOf_of_kind (kept.kind_eq.trans known), decide_eq_true_iff]
          exact List.mem_append_left _ (List.mem_append_right _ member)
  | grouped _ _ _ =>
      cases shaped with
      | grouped opens _ =>
          rw [List.cons_append, nextIsOneOf_cons, isOneOf_of_kind opens]
          decide
  | unary _ _ =>
      cases shaped with
      | unary isOperator _ _ =>
          rw [nextIsOneOf_cons]
          exact isOneOf_of_subset (by decide) (isOneOf_unaryOperators_iff.mpr isOperator)
  | binary spellsLeft _ ih _ =>
      cases shaped with
      | binary _ _ _ _ leftShaped _ =>
          rw [nextIsOneOf_append spellsLeft.ne_nil]
          exact ih leftShaped
  | ternary spellsCondition _ _ _ _ ih _ _ =>
      cases shaped with
      | ternary _ conditionShaped _ _ =>
          rw [List.append_assoc, nextIsOneOf_append spellsCondition.ne_nil]
          exact ih conditionShaped

/-- All tokens of an expression are symbols that occur in expressions. -/
theorem Spells.all_isOneOf {e : Expr} {ts : List Token} (spells : Spells e ts)
    (shaped : Shaped e) : ∀ t ∈ ts, isOneOf expressionSymbols t = true := by
  induction spells with
  | literal kept =>
      cases shaped with
      | literal isLeaf _ =>
          intro t member
          rw [List.mem_singleton.mp member]
          obtain ⟨s, member, known⟩ := isOneOf_iff.mp (isOneOf_leaves_iff.mpr isLeaf)
          have subset : leaves ⊆ expressionSymbols := by decide
          exact isOneOf_iff.mpr ⟨s, subset member, kept.kind_eq.trans known⟩
  | grouped _ closes ih =>
      cases shaped with
      | grouped opens innerShaped =>
          intro t member
          simp only [List.cons_append, List.mem_cons, List.mem_append, List.not_mem_nil,
            or_false] at member
          rcases member with rfl | member | rfl
          · rw [isOneOf_of_kind opens]
            decide
          · exact ih innerShaped t member
          · rw [isOneOf_of_kind closes]
            decide
  | unary _ ih =>
      cases shaped with
      | unary isOperator _ rightShaped =>
          intro t member
          rcases List.mem_cons.mp member with rfl | member
          · exact isOneOf_of_subset (by decide) (isOneOf_unaryOperators_iff.mpr isOperator)
          · exact ih rightShaped t member
  | binary _ _ ihLeft ihRight =>
      cases shaped with
      | binary level isOperator _ _ leftShaped rightShaped =>
          intro t member
          simp only [List.mem_append, List.mem_cons] at member
          rcases member with member | rfl | member
          · exact ihLeft leftShaped t member
          · exact isOneOf_of_subset (by cases level <;> decide)
              (Level.isOneOf_operators_iff.mpr isOperator)
          · exact ihRight rightShaped t member
  | ternary _ asks _ divides _ ihCondition ihYes ihNo =>
      cases shaped with
      | ternary _ conditionShaped yesShaped noShaped =>
          intro t member
          simp only [List.mem_append, List.mem_cons] at member
          rcases member with (member | rfl | member) | rfl | member
          · exact ihCondition conditionShaped t member
          · rw [isOneOf_of_kind asks]
            decide
          · exact ihYes yesShaped t member
          · rw [isOneOf_of_kind divides]
            decide
          · exact ihNo noShaped t member

theorem Shaped.rank_le {e : Expr} (shaped : Shaped e) : rank e ≤ conditionalRank := by
  cases shaped with
  | literal _ _ => exact Nat.zero_le _
  | grouped _ _ => exact Nat.zero_le _
  | unary _ _ _ => exact Nat.zero_le _
  | binary level isOperator _ _ _ _ =>
      rw [rank_binary isOperator]
      cases level <;> decide
  | ternary _ _ _ _ => exact Nat.le_refl _

/-- The tokens write down an expression that binds no more loosely than `bound` allows. -/
structure Written (bound : Nat) (e : Expr) (ts : List Token) : Prop where
  shaped : Shaped e
  rank_le : rank e ≤ bound
  spells : Spells e ts

namespace Written

variable {bound other : Nat} {e left right : Expr} {op t close question colon : Token}
  {ts ls rs : List Token}

theorem mono (written : Written bound e ts) (looser : bound ≤ other) : Written other e ts :=
  ⟨written.shaped, Nat.le_trans written.rank_le looser, written.spells⟩

theorem leaf (isLeaf : isOneOf leaves t = true) : Written 0 (Lox.leaf t) [t] := by
  obtain ⟨kept, made, keeps, valued⟩ := exists_leaf_eq t
  have isLeaf := isOneOf_leaves_iff.mp isLeaf
  rw [keeps.kind_eq] at isLeaf
  rw [made]
  exact ⟨.literal isLeaf valued, Nat.le_refl _, .literal keeps⟩

theorem grouped (opens : t.kind = Symbol.leftParen.kind) (inner : Written conditionalRank e ts)
    (closes : close.kind = Symbol.rightParen.kind) :
    Written 0 (.grouped t e) (t :: ts ++ [close]) :=
  ⟨.grouped opens inner.shaped, Nat.le_refl _, .grouped inner.spells closes⟩

theorem unary (isOperator : isOneOf unaryOperators op = true) (written : Written 0 e ts) :
    Written 0 (.unary op e) (op :: ts) :=
  ⟨.unary (isOneOf_unaryOperators_iff.mp isOperator) (Nat.le_zero.mp written.rank_le)
    written.shaped, Nat.le_refl _, .unary written.spells⟩

theorem binary {level : Level} (writtenLeft : Written level.rank left ls)
    (isOperator : isOneOf level.operators op = true)
    (writtenRight : Written (level.rank - 1) right rs) :
    Written level.rank (.binary left op right) (ls ++ op :: rs) := by
  have positive : 0 < level.rank := by cases level <;> decide
  have tighter : rank right < level.rank :=
    Nat.lt_of_le_of_lt writtenRight.rank_le (Nat.sub_lt positive Nat.one_pos)
  have known := Level.isOneOf_operators_iff.mp isOperator
  exact ⟨.binary level known writtenLeft.rank_le tighter writtenLeft.shaped writtenRight.shaped,
    Nat.le_of_eq (rank_binary known), .binary writtenLeft.spells writtenRight.spells⟩

theorem ternary {condition yes no : Expr} {cs ys ns : List Token}
    (writtenCondition : Written Level.equality.rank condition cs)
    (asks : question.kind = Symbol.question.kind) (writtenYes : Written conditionalRank yes ys)
    (divides : colon.kind = Symbol.colon.kind) (writtenNo : Written conditionalRank no ns) :
    Written conditionalRank (.ternary condition yes no)
      (cs ++ question :: ys ++ colon :: ns) :=
  ⟨.ternary (Nat.lt_succ_of_le writtenCondition.rank_le) writtenCondition.shaped
    writtenYes.shaped writtenNo.shaped, Nat.le_refl _,
    .ternary writtenCondition.spells asks writtenYes.spells divides writtenNo.spells⟩

end Written

end Lox

end FrontEnd
