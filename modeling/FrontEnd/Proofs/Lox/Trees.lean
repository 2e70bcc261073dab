import FrontEnd.Proofs.Lox.Readers

/-!
# Readers and the trees they build

A reader that succeeds has passed over exactly the tokens that write its answer down, and the
answer has the shape that the reader is for (`Reads.meets`).  Conversely, a reader in front of
a written expression answers with that expression, provided that the tokens behind it cannot
continue it (`Written.reads`).
-/

namespace FrontEnd

namespace Lox

namespace Task

/-- What the answer to a task is, in terms of the tokens passed over. -/
def Answers : Task → Expr → List Token → Prop
  | .conditional, e, ts => Written conditionalRank e ts
  | .binary level, e, ts => Written level.rank e ts
  | .chain level left, e, ts =>
    ∀ ls, Written level.rank left ls → Written level.rank e (ls ++ ts)
  | .unary, e, ts => Written 0 e ts

/-- What a reading tells about the tokens it is a reading of. -/
def Meets (task : Task) (ts : List Token) : Reading → Prop
  | .error failure => ∃ passed, ts = passed ++ failure.rest
  | .ok (e, rest) => ∃ passed, ts = passed ++ rest ∧ task.Answers e passed

theorem answers_operand {level : Level} {e : Expr} {ts : List Token} :
    (operand level).Answers e ts ↔ Written (level.rank - 1) e ts := by
  cases level <;> exact Iff.rfl

end Task

/-- Readers answer with what they passed over, or stop at some token. -/
theorem Reads.meets {task : Task} {ts : List Token} {reading : Reading}
    (reads : Reads task ts reading) : task.Meets ts reading := by
  induction reads with
  | conditionFails _ ih => exact ih
  | condition _ _ ih =>
      obtain ⟨cs, rfl, written⟩ := ih
      exact ⟨cs, rfl, Written.mono written (by decide)⟩
  | @yesFails _ _ question _ _ _ _ _ ih ihYes =>
      obtain ⟨cs, rfl, _⟩ := ih
      obtain ⟨ys, rfl⟩ := ihYes
      exact ⟨cs ++ question :: ys, by simp⟩
  | @colonMissing _ _ question _ _ _ _ _ _ _ ih ihYes =>
      obtain ⟨cs, rfl, _⟩ := ih
      obtain ⟨ys, rfl, _⟩ := ihYes
      exact ⟨cs ++ question :: ys, by simp⟩
  | @noFails _ _ question _ _ colon _ _ _ _ _ _ _ ih ihYes ihNo =>
      obtain ⟨cs, rfl, _⟩ := ih
      obtain ⟨ys, rfl, _⟩ := ihYes
      obtain ⟨ns, rfl⟩ := ihNo
      exact ⟨cs ++ question :: ys ++ colon :: ns, by simp⟩
  | choice _ asks _ divides _ ih ihYes ihNo =>
      obtain ⟨cs, rfl, condition⟩ := ih
      obtain ⟨ys, rfl, yes⟩ := ihYes
      obtain ⟨ns, rfl, no⟩ := ihNo
      exact ⟨_, by simp, Written.ternary condition asks yes divides no⟩
  | operandFails _ ih => exact ih
  | @operand level _ _ _ reading _ _ ih ihChain =>
      obtain ⟨ls, rfl, left⟩ := ih
      have looser : Written level.rank _ ls :=
        (Task.answers_operand.mp left).mono (Nat.sub_le _ _)
      cases reading with
      | error failure =>
          obtain ⟨passed, rfl⟩ := ihChain
          exact ⟨ls ++ passed, by simp⟩
      | ok answer =>
          obtain ⟨passed, rfl, continues⟩ := ihChain
          exact ⟨ls ++ passed, by simp, continues ls looser⟩
  | chainEnds _ =>
      refine ⟨[], rfl, ?_⟩
      intro ls written
      rw [List.append_nil]
      exact written
  | @chainFails _ _ op _ _ _ _ ih =>
      obtain ⟨rs, rfl⟩ := ih
      exact ⟨op :: rs, rfl⟩
  | @chainGrows level _ op _ _ _ reading isOperator _ _ ih ihChain =>
      obtain ⟨rs, rfl, right⟩ := ih
      have tighter := Task.answers_operand.mp right
      cases reading with
      | error failure =>
          obtain ⟨passed, rfl⟩ := ihChain
          exact ⟨op :: rs ++ passed, by simp⟩
      | ok answer =>
          obtain ⟨passed, rfl, continues⟩ := ihChain
          refine ⟨op :: rs ++ passed, by simp, ?_⟩
          intro ls written
          have grown := continues _ (written.binary isOperator tighter)
          simpa using grown
  | @unaryFails op _ _ _ _ ih =>
      obtain ⟨rs, rfl⟩ := ih
      exact ⟨op :: rs, rfl⟩
  | unary isOperator _ ih =>
      obtain ⟨rs, rfl, right⟩ := ih
      exact ⟨_, rfl, Written.unary isOperator right⟩
  | leaf isLeaf => exact ⟨[_], rfl, Written.leaf isLeaf⟩
  | @innerFails paren _ _ _ _ ih =>
      obtain ⟨inner, rfl⟩ := ih
      exact ⟨paren :: inner, rfl⟩
  | @parenMissing paren _ _ _ _ _ _ ih =>
      obtain ⟨inner, rfl, _⟩ := ih
      exact ⟨paren :: inner, rfl⟩
  | group opens _ closes ih =>
      obtain ⟨inner, rfl, written⟩ := ih
      exact ⟨_, by simp, Written.grouped opens written closes⟩
  | nothing _ => exact ⟨[], rfl⟩

theorem exists_written_of_parseExpr {ts rest : List Token} {e : Expr}
    (read : parseExpr ts = .ok (e, rest)) :
    ∃ passed, ts = passed ++ rest ∧ Written conditionalRank e passed := by
  have reads := reads_parseExpr ts
  rw [read] at reads
  exact reads.meets

theorem exists_passed_of_parseExpr {ts : List Token} {failure : Failure}
    (read : parseExpr ts = .error failure) : ∃ passed, ts = passed ++ failure.rest := by
  have reads := reads_parseExpr ts
  rw [read] at reads
  exact reads.meets

/-- The task for expressions that bind no more loosely than a rank allows. -/
def Task.ofRank : Nat → Task
  | 0 => .unary
  | 1 => .binary .factor
  | 2 => .binary .term
  | 3 => .binary .comparison
  | 4 => .binary .equality
  | _ => .conditional

theorem Task.ofRank_level (level : Level) : ofRank level.rank = .binary level := by
  cases level <;> rfl

theorem Task.ofRank_operand (level : Level) : ofRank (level.rank - 1) = .operand level := by
  cases level <;> rfl

/-- An expression that binds no more loosely than `bound` allows does not go on with these
tokens. -/
structure Ends (bound : Nat) (rest : List Token) : Prop where
  operators : ∀ level : Level, level.rank ≤ bound → nextIsOneOf level.operators rest = false
  question : conditionalRank ≤ bound → nextIsOneOf [.question] rest = false

namespace Ends

variable {bound tighter : Nat} {t : Token} {rest : List Token}

theorem mono (ends : Ends bound rest) (le : tighter ≤ bound) : Ends tighter rest :=
  ⟨fun level within => ends.operators level (Nat.le_trans within le),
    fun within => ends.question (Nat.le_trans within le)⟩

/-- Whatever follows them, the tightest expressions end there. -/
theorem zero : Ends 0 rest :=
  ⟨fun level within => absurd within (by cases level <;> decide),
    fun within => absurd within (by decide)⟩

theorem nil : Ends bound [] := ⟨fun _ _ => rfl, fun _ => rfl⟩

/-- A symbol that continues no expression ends every expression. -/
theorem cons {symbols : List Symbol} (one : isOneOf symbols t = true)
    (apart : ∀ s ∈ symbols, s ∉ continuations) : Ends bound (t :: rest) := by
  have other : isOneOf continuations t = false := isOneOf_eq_false apart one
  constructor
  · intro level _
    rw [nextIsOneOf_cons, Bool.eq_false_iff]
    intro there
    rw [isOneOf_of_subset level.operators_subset there] at other
    exact Bool.noConfusion other
  · intro _
    rw [nextIsOneOf_cons, Bool.eq_false_iff]
    intro there
    rw [isOneOf_of_subset (by decide) there] at other
    exact Bool.noConfusion other

theorem question_cons (asks : t.kind = Symbol.question.kind) :
    Ends Level.equality.rank (t :: rest) := by
  refine ⟨fun level _ => ?_, fun within => absurd within (by decide)⟩
  rw [nextIsOneOf_cons, isOneOf_of_kind asks]
  cases level <;> decide

/-- An operator of a level ends the operands of the level. -/
theorem operator_cons {level : Level} (isOperator : isOneOf level.operators t = true) :
    Ends (level.rank - 1) (t :: rest) := by
  constructor
  · intro other within
    rw [nextIsOneOf_cons, Bool.eq_false_iff]
    intro there
    rw [Level.eq_of_isOneOf isOperator there] at within
    cases other <;> exact absurd within (by decide)
  · intro within
    cases level <;> exact absurd within (by decide)

end Ends

/-- A reader for looser expressions reads a tighter one if it ends there. -/
theorem Reads.climb {bound looser : Nat} {ts rest : List Token} {e : Expr}
    (reads : Reads (.ofRank bound) ts (.ok (e, rest))) (le : bound ≤ looser)
    (ends : Ends looser rest) : Reads (.ofRank looser) ts (.ok (e, rest)) := by
  induction le with
  | refl => exact reads
  | @step looser _ ih =>
      have before := ih (ends.mono (Nat.le_succ _))
      have step : ∀ level : Level, looser = level.rank - 1 → looser + 1 = level.rank →
          Reads (.ofRank (looser + 1)) ts (.ok (e, rest)) := by
        intro level operandRank levelRank
        rw [operandRank, Task.ofRank_operand] at before
        have stops := ends.operators level (Nat.le_of_eq levelRank.symm)
        rw [levelRank, Task.ofRank_level]
        exact .operand before (.chainEnds stops)
      match looser with
      | 0 => exact step .factor rfl rfl
      | 1 => exact step .term rfl rfl
      | 2 => exact step .comparison rfl rfl
      | 3 => exact step .equality rfl rfl
      | 4 => exact .condition before (ends.question (by decide))
      | _ + 5 => exact before

/-- A written expression is read off the tokens that it ends in front of. -/
def ReadBack (e : Expr) (ts : List Token) : Prop :=
  ∀ bound rest, rank e ≤ bound → Ends bound rest →
    Reads (.ofRank bound) (ts ++ rest) (.ok (e, rest))

/-- A written expression is read as the left operand of what follows it. -/
def ReadOn (level : Level) (e : Expr) (ts : List Token) : Prop :=
  ∀ rest reading, Ends (level.rank - 1) rest → Reads (.chain level e) rest reading →
    Reads (.binary level) (ts ++ rest) reading

theorem ReadBack.of_unary {e : Expr} {ts : List Token}
    (reads : ∀ rest, Reads .unary (ts ++ rest) (.ok (e, rest))) : ReadBack e ts := by
  intro bound rest _ ends
  have tightest : Reads (.ofRank 0) (ts ++ rest) (.ok (e, rest)) := reads rest
  exact tightest.climb (Nat.zero_le bound) ends

theorem ReadBack.readOn {level : Level} {e : Expr} {ts : List Token} (back : ReadBack e ts)
    (tighter : rank e < level.rank) : ReadOn level e ts := by
  intro rest reading ends chain
  have operand := back (level.rank - 1) rest (Nat.le_sub_one_of_lt tighter) ends
  rw [Task.ofRank_operand] at operand
  exact .operand operand chain

private theorem ReadBack.and_readOn {e : Expr} {ts : List Token} (tight : rank e = 0)
    (back : ReadBack e ts) :
    ReadBack e ts ∧ ∀ level : Level, rank e ≤ level.rank → ReadOn level e ts := by
  refine ⟨back, fun level _ => back.readOn ?_⟩
  rw [tight]
  cases level <;> decide

/-- The induction is over the tree.  A chain of operators grows to the left, so its left part is
never read by itself: it is read on, as the left operand of the operators behind it. -/
private theorem Shaped.readBack_and_readOn {e : Expr} (shaped : Shaped e) :
    ∀ ts, Spells e ts →
      ReadBack e ts ∧ ∀ level : Level, rank e ≤ level.rank → ReadOn level e ts := by
  induction shaped with
  | literal isLeaf valued =>
      intro ts spells
      cases spells with
      | @literal written _ kept =>
          apply ReadBack.and_readOn rfl
          apply ReadBack.of_unary
          intro rest
          rw [← kept.kind_eq] at isLeaf
          have reads : Reads .unary (written :: rest) (.ok (leaf written, rest)) :=
            .leaf (isOneOf_leaves_iff.mpr isLeaf)
          rw [kept.leaf_eq valued] at reads
          exact reads
  | grouped opens shaped ih =>
      intro ts spells
      cases spells with
      | @grouped _ close _ ts spells closes =>
          apply ReadBack.and_readOn rfl
          apply ReadBack.of_unary
          intro rest
          have ends : Ends conditionalRank (close :: rest) :=
            .cons (isOneOf_singleton.mpr closes) (by decide)
          have reads := (ih ts spells).1 conditionalRank _ shaped.rank_le ends
          simp only [List.cons_append, List.append_assoc, List.nil_append]
          exact .group opens reads closes
  | unary isOperator tight _ ih =>
      intro ts spells
      cases spells with
      | @unary _ _ rs spells =>
          apply ReadBack.and_readOn rfl
          apply ReadBack.of_unary
          intro rest
          have reads := (ih rs spells).1 0 rest (Nat.le_of_eq tight) .zero
          exact .unary (isOneOf_unaryOperators_iff.mpr isOperator) reads
  | @binary left right op level isOperator leftRank rightRank _ _ ihLeft ihRight =>
      intro ts spells
      cases spells with
      | @binary _ _ _ ls rs spellsLeft spellsRight =>
          have isOneOf := Level.isOneOf_operators_iff.mpr isOperator
          -- The right operand is read by itself.  The left one is read on, with the operator and
          -- the right operand as the next link of the chain.
          have chains : ReadOn level (.binary left op right) (ls ++ op :: rs) := by
            intro rest reading ends chain
            have operand := (ihRight rs spellsRight).1 (level.rank - 1) rest
              (Nat.le_sub_one_of_lt rightRank) ends
            rw [Task.ofRank_operand] at operand
            have grows := Reads.chainGrows isOneOf operand chain
            have reads := (ihLeft ls spellsLeft).2 level leftRank _ reading
              (.operator_cons isOneOf) grows
            simpa using reads
          have back : ReadBack (.binary left op right) (ls ++ op :: rs) := by
            intro bound rest within ends
            rw [rank_binary isOperator] at within
            have reads := chains rest _ (ends.mono (Nat.le_trans (Nat.sub_le _ _) within))
              (.chainEnds (ends.operators level within))
            rw [← Task.ofRank_level] at reads
            exact reads.climb within ends
          refine ⟨back, ?_⟩
          intro other within
          rw [rank_binary isOperator] at within
          rcases Nat.lt_or_eq_of_le within with tighter | same
          · exact back.readOn (rank_binary isOperator ▸ tighter)
          · rw [← Level.rank_inj.mp same]
            exact chains
  | ternary tight _ yesShaped noShaped ihCondition ihYes ihNo =>
      intro ts spells
      cases spells with
      | @ternary _ _ _ question colon cs ys ns spellsCondition asks spellsYes divides
          spellsNo =>
          have loosest (level : Level) : ¬ conditionalRank ≤ level.rank := by
            cases level <;> decide
          refine ⟨?_, fun level within => absurd within (loosest level)⟩
          intro bound rest within ends
          have last := (ihNo ns spellsNo).1 conditionalRank rest noShaped.rank_le
            (ends.mono within)
          have second := (ihYes ys spellsYes).1 conditionalRank (colon :: (ns ++ rest))
            yesShaped.rank_le (.cons (isOneOf_singleton.mpr divides) (by decide))
          have first := (ihCondition cs spellsCondition).1 Level.equality.rank
            (question :: (ys ++ colon :: (ns ++ rest))) (Nat.le_of_lt_succ tight)
            (.question_cons asks)
          have reads : Reads (.ofRank conditionalRank) _ _ :=
            .choice first asks second divides last
          have climbed := reads.climb within ends
          simpa using climbed

/-- A written expression is read off the tokens that it ends in front of. -/
theorem Written.reads {bound : Nat} {e : Expr} {ts rest : List Token}
    (written : Written bound e ts) (ends : Ends bound rest) :
    Reads (.ofRank bound) (ts ++ rest) (.ok (e, rest)) :=
  (written.shaped.readBack_and_readOn ts written.spells).1 bound rest written.rank_le ends

end Lox

end FrontEnd
