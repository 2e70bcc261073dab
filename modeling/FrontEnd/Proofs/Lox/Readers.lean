import FrontEnd.Proofs.Lox.Spelling

/-!
# What the readers do

The readers of Lox expressions call each other, and each may stop at a token that fits nowhere.
`Reads task ts reading` lists their moves one by one: which reader is asked for what, on which
tokens, and what comes of it.  The readers follow these rules (`reads_parseExpr`) and no others
(`Reads.eq_read`), so what every rule keeps is kept by every reader.
-/

namespace FrontEnd

namespace Lox

/-- What a reader answers: an expression with the tokens behind it, or a failure. -/
abbrev Reading := Except Failure (Expr × List Token)

namespace Parsed

variable {m n : Nat} {result : Parsed n}

/-- A result without the bound on its tokens. -/
def reading : Parsed n → Reading
  | .error failure => .error failure
  | .ok s => .ok (s.expr, s.rest)

@[simp] theorem reading_error (failure : Failure) :
    reading (.error failure : Parsed n) = .error failure := rfl

@[simp] theorem reading_ok (s : Success n) : reading (.ok s) = .ok (s.expr, s.rest) := rfl

@[simp] theorem reading_weaken (bound : m ≤ n) (result : Parsed m) :
    (result.weaken bound).reading = result.reading := by
  cases result <;> rfl

theorem eq_error_of_reading {failure : Failure} (read : .error failure = result.reading) :
    result = .error failure := by
  cases result with
  | error _ =>
      rw [reading_error, Except.error.injEq] at read
      rw [read]
  | ok _ => simp at read

theorem eq_ok_of_reading {e : Expr} {rest : List Token} (read : .ok (e, rest) = result.reading) :
    ∃ shorter, result = .ok ⟨e, rest, shorter⟩ := by
  cases result with
  | error _ => simp at read
  | ok s =>
      rw [reading_ok, Except.ok.injEq, Prod.mk.injEq] at read
      obtain ⟨rfl, rfl⟩ := read
      exact ⟨s.shorter, rfl⟩

end Parsed

theorem parseExpr_eq (ts : List Token) : parseExpr ts = (conditional ts).reading := by
  unfold parseExpr
  cases conditional ts <;> rfl

/-- What a reader can be asked for. -/
inductive Task where
  | conditional
  | binary (level : Level)
  /-- The operators of a level and the operands behind them, to the right of `left`. -/
  | chain (level : Level) (left : Expr)
  | unary

namespace Task

/-- An operand of a level. -/
def operand : Level → Task
  | .equality => .binary .comparison
  | .comparison => .binary .term
  | .term => .binary .factor
  | .factor => .unary

/-- The answer of the reader that a task is for. -/
def read : Task → List Token → Reading
  | .conditional, ts => (Lox.conditional ts).reading
  | .binary level, ts => (Lox.binary level ts).reading
  | .chain level left, ts => (Lox.chain level left ts).reading
  | .unary, ts => (Lox.unary ts).reading

theorem read_operand (level : Level) (ts : List Token) :
    (operand level).read ts = (Lox.operand level ts).reading := by
  rw [Lox.operand.eq_def]
  cases level <;> rfl

end Task

/-- The moves of the readers. -/
inductive Reads : Task → List Token → Reading → Prop where
  | conditionFails {ts failure} (first : Reads (.binary .equality) ts (.error failure)) :
      Reads .conditional ts (.error failure)
  | condition {ts c rest} (first : Reads (.binary .equality) ts (.ok (c, rest)))
      (stops : nextIsOneOf [.question] rest = false) : Reads .conditional ts (.ok (c, rest))
  | yesFails {ts c question rest failure}
      (first : Reads (.binary .equality) ts (.ok (c, question :: rest)))
      (asks : question.kind = Symbol.question.kind)
      (second : Reads .conditional rest (.error failure)) :
      Reads .conditional ts (.error failure)
  | colonMissing {ts c question rest y behind}
      (first : Reads (.binary .equality) ts (.ok (c, question :: rest)))
      (asks : question.kind = Symbol.question.kind)
      (second : Reads .conditional rest (.ok (y, behind)))
      (missing : nextIsOneOf [.colon] behind = false) :
      Reads .conditional ts (.error ⟨.expectedColon, behind⟩)
  | noFails {ts c question rest y colon behind failure}
      (first : Reads (.binary .equality) ts (.ok (c, question :: rest)))
      (asks : question.kind = Symbol.question.kind)
      (second : Reads .conditional rest (.ok (y, colon :: behind)))
      (divides : colon.kind = Symbol.colon.kind)
      (third : Reads .conditional behind (.error failure)) :
      Reads .conditional ts (.error failure)
  | choice {ts c question rest y colon behind n last}
      (first : Reads (.binary .equality) ts (.ok (c, question :: rest)))
      (asks : question.kind = Symbol.question.kind)
      (second : Reads .conditional rest (.ok (y, colon :: behind)))
      (divides : colon.kind = Symbol.colon.kind)
      (third : Reads .conditional behind (.ok (n, last))) :
      Reads .conditional ts (.ok (.ternary c y n, last))
  | operandFails {level ts failure} (first : Reads (.operand level) ts (.error failure)) :
      Reads (.binary level) ts (.error failure)
  | operand {level ts left rest reading} (first : Reads (.operand level) ts (.ok (left, rest)))
      (second : Reads (.chain level left) rest reading) : Reads (.binary level) ts reading
  | chainEnds {level left ts} (stops : nextIsOneOf level.operators ts = false) :
      Reads (.chain level left) ts (.ok (left, ts))
  | chainFails {level left op rest failure} (isOperator : isOneOf level.operators op = true)
      (first : Reads (.operand level) rest (.error failure)) :
      Reads (.chain level left) (op :: rest) (.error failure)
  | chainGrows {level left op rest right behind reading}
      (isOperator : isOneOf level.operators op = true)
      (first : Reads (.operand level) rest (.ok (right, behind)))
      (second : Reads (.chain level (.binary left op right)) behind reading) :
      Reads (.chain level left) (op :: rest) reading
  | unaryFails {op rest failure} (isOperator : isOneOf unaryOperators op = true)
      (first : Reads .unary rest (.error failure)) : Reads .unary (op :: rest) (.error failure)
  | unary {op rest right behind} (isOperator : isOneOf unaryOperators op = true)
      (first : Reads .unary rest (.ok (right, behind))) :
      Reads .unary (op :: rest) (.ok (.unary op right, behind))
  | leaf {t rest} (isLeaf : isOneOf leaves t = true) :
      Reads .unary (t :: rest) (.ok (Lox.leaf t, rest))
  | innerFails {paren rest failure} (opens : paren.kind = Symbol.leftParen.kind)
      (first : Reads .conditional rest (.error failure)) :
      Reads .unary (paren :: rest) (.error failure)
  | parenMissing {paren rest inner behind} (opens : paren.kind = Symbol.leftParen.kind)
      (first : Reads .conditional rest (.ok (inner, behind)))
      (missing : nextIsOneOf [.rightParen] behind = false) :
      Reads .unary (paren :: rest) (.error ⟨.expectedParen, behind⟩)
  | group {paren rest inner close behind} (opens : paren.kind = Symbol.leftParen.kind)
      (first : Reads .conditional rest (.ok (inner, close :: behind)))
      (closes : close.kind = Symbol.rightParen.kind) :
      Reads .unary (paren :: rest) (.ok (.grouped paren inner, behind))
  | nothing {ts} (missing : nextIsOneOf starters ts = false) :
      Reads .unary ts (.error ⟨.expectedExpression, ts⟩)

/-- The readers make no other moves. -/
theorem Reads.eq_read {task : Task} {ts : List Token} {reading : Reading}
    (reads : Reads task ts reading) : reading = task.read ts := by
  induction reads with
  | conditionFails _ ih =>
      have failed := Parsed.eq_error_of_reading ih
      rw [Task.read, conditional, failed]
      rfl
  | @condition ts c rest _ stops ih =>
      obtain ⟨shorter, read⟩ := Parsed.eq_ok_of_reading ih
      rw [Task.read, conditional, read]
      cases rest with
      | nil => rfl
      | cons t rest =>
          simp only [isOneOf_singleton_eq_false.mp stops, ↓reduceIte]
          rfl
  | yesFails _ asks _ ih ihYes =>
      obtain ⟨shorter, read⟩ := Parsed.eq_ok_of_reading ih
      have failed := Parsed.eq_error_of_reading ihYes
      rw [Task.read, conditional, read]
      simp only [asks, ↓reduceIte, failed]
      rfl
  | @colonMissing ts c question rest y behind _ asks _ missing ih ihYes =>
      obtain ⟨shorter, read⟩ := Parsed.eq_ok_of_reading ih
      obtain ⟨shorterYes, readYes⟩ := Parsed.eq_ok_of_reading ihYes
      rw [Task.read, conditional, read]
      simp only [asks, ↓reduceIte, readYes]
      cases behind with
      | nil => rfl
      | cons t behind =>
          simp only [isOneOf_singleton_eq_false.mp missing, ↓reduceIte]
          rfl
  | noFails _ asks _ divides _ ih ihYes ihNo =>
      obtain ⟨shorter, read⟩ := Parsed.eq_ok_of_reading ih
      obtain ⟨shorterYes, readYes⟩ := Parsed.eq_ok_of_reading ihYes
      have failed := Parsed.eq_error_of_reading ihNo
      rw [Task.read, conditional, read]
      simp only [asks, ↓reduceIte, readYes, divides, failed]
      rfl
  | choice _ asks _ divides _ ih ihYes ihNo =>
      obtain ⟨shorter, read⟩ := Parsed.eq_ok_of_reading ih
      obtain ⟨shorterYes, readYes⟩ := Parsed.eq_ok_of_reading ihYes
      obtain ⟨shorterNo, readNo⟩ := Parsed.eq_ok_of_reading ihNo
      rw [Task.read, conditional, read]
      simp only [asks, ↓reduceIte, readYes, divides, readNo]
      rfl
  | operandFails _ ih =>
      rw [Task.read_operand] at ih
      have failed := Parsed.eq_error_of_reading ih
      rw [Task.read, binary, failed]
      rfl
  | operand _ _ ih ihChain =>
      rw [Task.read_operand] at ih
      obtain ⟨shorter, read⟩ := Parsed.eq_ok_of_reading ih
      rw [ihChain, Task.read, Task.read, binary, read]
      exact (Parsed.reading_weaken _ _).symm
  | @chainEnds level left ts stops =>
      rw [Task.read, chain.eq_def]
      cases ts with
      | nil => rfl
      | cons t rest =>
          rw [nextIsOneOf_cons] at stops
          simp only [stops, Bool.false_eq_true, ↓reduceIte]
          rfl
  | chainFails isOperator _ ih =>
      rw [Task.read_operand] at ih
      have failed := Parsed.eq_error_of_reading ih
      rw [Task.read, chain]
      simp only [isOperator, ↓reduceIte, failed]
      rfl
  | chainGrows isOperator _ _ ih ihChain =>
      rw [Task.read_operand] at ih
      obtain ⟨shorter, read⟩ := Parsed.eq_ok_of_reading ih
      rw [ihChain, Task.read, Task.read, chain]
      simp only [isOperator, ↓reduceIte, read, Parsed.reading_weaken]
  | unaryFails isOperator _ ih =>
      have failed := Parsed.eq_error_of_reading ih
      rw [Task.read, Lox.unary]
      simp only [isOperator, ↓reduceIte, failed]
      rfl
  | unary isOperator _ ih =>
      obtain ⟨shorter, read⟩ := Parsed.eq_ok_of_reading ih
      rw [Task.read, Lox.unary]
      simp only [isOperator, ↓reduceIte, read]
      rfl
  | @leaf t rest isLeaf =>
      have noOperator : isOneOf unaryOperators t = false :=
        isOneOf_eq_false (by decide) isLeaf
      rw [Task.read, Lox.unary]
      simp only [noOperator, Bool.false_eq_true, ↓reduceIte, isLeaf]
      rfl
  | innerFails opens _ ih =>
      have failed := Parsed.eq_error_of_reading ih
      rw [Task.read, Lox.unary]
      simp only [isOneOf_of_kind opens, opens, failed]
      rfl
  | @parenMissing paren rest inner behind opens _ missing ih =>
      obtain ⟨shorter, read⟩ := Parsed.eq_ok_of_reading ih
      rw [Task.read, Lox.unary]
      simp only [isOneOf_of_kind opens, opens, read]
      cases behind with
      | nil => rfl
      | cons t behind =>
          simp only [isOneOf_singleton_eq_false.mp missing, ↓reduceIte]
          rfl
  | group opens _ closes ih =>
      obtain ⟨shorter, read⟩ := Parsed.eq_ok_of_reading ih
      rw [Task.read, Lox.unary]
      simp only [isOneOf_of_kind opens, opens, read, closes]
      rfl
  | @nothing ts missing =>
      rw [Task.read, Lox.unary.eq_def]
      cases ts with
      | nil => rfl
      | cons t rest =>
          rw [nextIsOneOf_cons, starters, isOneOf_append, isOneOf_append, Bool.or_eq_false_iff,
            Bool.or_eq_false_iff] at missing
          obtain ⟨⟨noOperator, noLeaf⟩, noParen⟩ := missing
          simp only [noOperator, noLeaf, isOneOf_singleton_eq_false.mp noParen, Bool.false_eq_true,
            ↓reduceIte]
          rfl

theorem Reads.reads_read {task : Task} {ts : List Token} {reading : Reading}
    (reads : Reads task ts reading) : Reads task ts (task.read ts) :=
  reads.eq_read ▸ reads

/-- Every reader follows the rules.  The cases are those of the readers' own recursion. -/
private theorem reads_read_all :
    (∀ ts, Reads .conditional ts (Task.conditional.read ts)) ∧
    (∀ level ts, Reads (.binary level) ts ((Task.binary level).read ts)) ∧
    (∀ level left ts, Reads (.chain level left) ts ((Task.chain level left).read ts)) ∧
    (∀ level ts, Reads (.operand level) ts ((Task.operand level).read ts)) ∧
    (∀ ts, Reads .unary ts (Task.unary.read ts)) := by
  apply conditional.mutual_induct
    (fun ts => Reads .conditional ts (Task.conditional.read ts))
    (fun level ts => Reads (.binary level) ts ((Task.binary level).read ts))
    (fun level left ts => Reads (.chain level left) ts ((Task.chain level left).read ts))
    (fun level ts => Reads (.operand level) ts ((Task.operand level).read ts))
    (fun ts => Reads .unary ts (Task.unary.read ts))
  · intro ts failure failed ih
    rw [Task.read, failed] at ih
    exact (Reads.conditionFails ih).reads_read
  · intro ts c shorter read ih
    rw [Task.read, read] at ih
    exact (Reads.condition ih nextIsOneOf_nil).reads_read
  · intro ts c question rest shorter read asks failure failed ih ihYes
    rw [Task.read, read] at ih
    rw [Task.read, failed] at ihYes
    exact (Reads.yesFails ih asks ihYes).reads_read
  · intro ts c question rest shorter read asks y shorterYes readYes ih ihYes
    rw [Task.read, read] at ih
    rw [Task.read, readYes] at ihYes
    exact (Reads.colonMissing ih asks ihYes nextIsOneOf_nil).reads_read
  · intro ts c question rest shorter read asks y colon behind shorterYes readYes divides
      failure failed ih ihYes ihNo
    rw [Task.read, read] at ih
    rw [Task.read, readYes] at ihYes
    rw [Task.read, failed] at ihNo
    exact (Reads.noFails ih asks ihYes divides ihNo).reads_read
  · intro ts c question rest shorter read asks y colon behind shorterYes readYes divides
      n last shorterNo readNo ih ihYes ihNo
    rw [Task.read, read] at ih
    rw [Task.read, readYes] at ihYes
    rw [Task.read, readNo] at ihNo
    exact (Reads.choice ih asks ihYes divides ihNo).reads_read
  · intro ts c question rest shorter read asks y other behind shorterYes readYes divides
      ih ihYes
    rw [Task.read, read] at ih
    rw [Task.read, readYes] at ihYes
    exact (Reads.colonMissing ih asks ihYes
      (isOneOf_singleton_eq_false.mpr divides)).reads_read
  · intro ts c other rest shorter read asks ih
    rw [Task.read, read] at ih
    exact (Reads.condition ih (isOneOf_singleton_eq_false.mpr asks)).reads_read
  · intro level ts failure failed ih
    rw [Task.read_operand, failed] at ih
    exact (Reads.operandFails ih).reads_read
  · intro level ts left rest shorter read ih ihChain
    rw [Task.read_operand, read] at ih
    exact (Reads.operand ih ihChain).reads_read
  · intro level left
    exact (Reads.chainEnds nextIsOneOf_nil).reads_read
  · intro level left op rest isOperator failure failed ih
    rw [Task.read_operand, failed] at ih
    exact (Reads.chainFails isOperator ih).reads_read
  · intro level left op rest isOperator right behind shorter read ih ihChain
    rw [Task.read_operand, read] at ih
    exact (Reads.chainGrows isOperator ih ihChain).reads_read
  · intro level left op rest other
    have stops : nextIsOneOf level.operators (op :: rest) = false := by
      rw [nextIsOneOf_cons, Bool.eq_false_iff]
      exact other
    exact (Reads.chainEnds stops).reads_read
  · exact fun _ ih => ih
  · exact fun _ ih => ih
  · exact fun _ ih => ih
  · exact fun _ ih => ih
  · exact (Reads.nothing nextIsOneOf_nil).reads_read
  · intro op rest isOperator failure failed ih
    rw [Task.read, failed] at ih
    exact (Reads.unaryFails isOperator ih).reads_read
  · intro op rest isOperator right behind shorter read ih
    rw [Task.read, read] at ih
    exact (Reads.unary isOperator ih).reads_read
  · intro t rest _ isLeaf
    exact (Reads.leaf isLeaf).reads_read
  · intro paren rest _ _ opens failure failed ih
    rw [Task.read, failed] at ih
    exact (Reads.innerFails opens ih).reads_read
  · intro paren rest _ _ opens inner shorter read ih
    rw [Task.read, read] at ih
    exact (Reads.parenMissing opens ih nextIsOneOf_nil).reads_read
  · intro paren rest _ _ opens inner close behind shorter read closes ih
    rw [Task.read, read] at ih
    exact (Reads.group opens ih closes).reads_read
  · intro paren rest _ _ opens inner other behind shorter read closes ih
    rw [Task.read, read] at ih
    exact (Reads.parenMissing opens ih (isOneOf_singleton_eq_false.mpr closes)).reads_read
  · intro t rest noOperator noLeaf noParen
    have missing : nextIsOneOf starters (t :: rest) = false := by
      rw [nextIsOneOf_cons, starters, isOneOf_append, isOneOf_append, Bool.or_eq_false_iff,
        Bool.or_eq_false_iff, Bool.eq_false_iff, Bool.eq_false_iff]
      exact ⟨⟨noOperator, noLeaf⟩, isOneOf_singleton_eq_false.mpr noParen⟩
    exact (Reads.nothing missing).reads_read

/-- What comes of reading an expression comes of it by the rules. -/
theorem reads_parseExpr (ts : List Token) : Reads .conditional ts (parseExpr ts) := by
  rw [parseExpr_eq]
  exact reads_read_all.1 ts

theorem Reads.parseExpr_eq {ts : List Token} {reading : Reading}
    (reads : Reads .conditional ts reading) : parseExpr ts = reading := by
  rw [Lox.parseExpr_eq]
  exact reads.eq_read.symm

end Lox

end FrontEnd
