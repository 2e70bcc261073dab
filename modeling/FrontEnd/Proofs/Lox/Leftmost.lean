import FrontEnd.Proofs.Expr.Parts
import FrontEnd.Proofs.Lox.Run
import FrontEnd.Proofs.Scanner.Locations

/-!
# Expressions are located at their first tokens

The location of an expression is found by going down its left side.  The tree was built the other way
round: a reader comes to an operand first, and takes it for the left part of something greater only
when it meets an operator.  `Asked` follows the readers on their way, and remembers for each chain of
operators where its left end is.  So for each part of a tree it is known with which token the readers
started on it (`Made`), and this is the token that the part is located at
(`parse_located_leftmost`).  The tokens of a scan are located one behind the other, so none of the
other tokens of the part is located before it.
-/

namespace FrontEnd

namespace Lox

/-! ## Where the readers start -/

/-- What is asked of the readers while they read an expression off the tokens `ts`: the reader for
`task` is asked in front of the tokens `us`, for an expression that starts in front of `entry`.
These are the same tokens, except for a chain, to which the operands so far belong. -/
inductive Asked (ts : List Token) : Task → List Token → List Token → Prop where
  | expression : Asked ts .conditional ts ts
  | condition {entry us} (asked : Asked ts .conditional entry us) :
      Asked ts (.binary .equality) us us
  | yes {entry us c question rest} (asked : Asked ts .conditional entry us)
      (first : Reads (.binary .equality) us (.ok (c, question :: rest)))
      (asks : question.kind = Symbol.question.kind) : Asked ts .conditional rest rest
  | no {entry us c question rest y colon behind} (asked : Asked ts .conditional entry us)
      (first : Reads (.binary .equality) us (.ok (c, question :: rest)))
      (asks : question.kind = Symbol.question.kind)
      (second : Reads .conditional rest (.ok (y, colon :: behind)))
      (divides : colon.kind = Symbol.colon.kind) : Asked ts .conditional behind behind
  | operand {level entry us} (asked : Asked ts (.binary level) entry us) :
      Asked ts (.operand level) us us
  | chain {level entry us left rest} (asked : Asked ts (.binary level) entry us)
      (first : Reads (.operand level) us (.ok (left, rest))) :
      Asked ts (.chain level left) us rest
  | link {level left entry op rest} (asked : Asked ts (.chain level left) entry (op :: rest))
      (isOperator : isOneOf level.operators op = true) : Asked ts (.operand level) rest rest
  | grown {level left entry op rest right behind}
      (asked : Asked ts (.chain level left) entry (op :: rest))
      (isOperator : isOneOf level.operators op = true)
      (first : Reads (.operand level) rest (.ok (right, behind))) :
      Asked ts (.chain level (.binary left op right)) entry behind
  | unary {entry op rest} (asked : Asked ts .unary entry (op :: rest))
      (isOperator : isOneOf unaryOperators op = true) : Asked ts .unary rest rest
  | inner {entry paren rest} (asked : Asked ts .unary entry (paren :: rest))
      (opens : paren.kind = Symbol.leftParen.kind) : Asked ts .conditional rest rest

/-- While the readers read an expression off the tokens `ts`, they have come to the expression `e`:
they started on it in front of `entry`, and are now in front of `rest`. -/
inductive Made (ts : List Token) : List Token → Expr → List Token → Prop where
  | answer {task entry us e rest} (asked : Asked ts task entry us)
      (reads : Reads task us (.ok (e, rest))) : Made ts entry e rest
  /-- The operands and operators of a chain so far. -/
  | soFar {level left entry rest} (asked : Asked ts (.chain level left) entry rest) :
      Made ts entry left rest

namespace Task

/-- What a task tells about the tokens between the start of its expression and those it is asked
in front of. -/
def StartsAt : Task → List Token → List Token → Prop
  | .chain level left, entry, us => ∃ passed, entry = passed ++ us ∧ Written level.rank left passed
  | _, entry, us => entry = us

theorem startsAt_operand (level : Level) (us : List Token) : (operand level).StartsAt us us := by
  cases level <;> rfl

end Task

section Starting

variable {ts entry us rest : List Token} {task : Task} {e : Expr}

theorem Asked.startsAt (asked : Asked ts task entry us) : task.StartsAt entry us := by
  induction asked with
  | expression => rfl
  | condition _ _ => rfl
  | yes _ _ _ _ => rfl
  | no _ _ _ _ _ _ => rfl
  | operand _ _ => exact Task.startsAt_operand _ _
  | @chain level _ _ _ _ _ first _ =>
      obtain ⟨passed, split, answers⟩ := first.meets
      have written := Task.answers_operand.mp answers
      exact ⟨passed, split, written.mono (Nat.sub_le _ _)⟩
  | link _ _ _ => exact Task.startsAt_operand _ _
  | @grown level _ _ op _ _ _ _ isOperator first ih =>
      obtain ⟨passed, rfl, left⟩ := ih
      obtain ⟨others, rfl, answers⟩ := first.meets
      refine ⟨passed ++ op :: others, by simp, ?_⟩
      exact left.binary isOperator (Task.answers_operand.mp answers)
  | unary _ _ _ => rfl
  | inner _ _ _ => rfl

/-- The tokens that the readers have passed over since they started on an expression write it
down. -/
theorem Made.exists_spells (made : Made ts entry e rest) :
    ∃ passed, entry = passed ++ rest ∧ Spells e passed := by
  cases made with
  | soFar asked =>
      obtain ⟨passed, split, written⟩ := asked.startsAt
      exact ⟨passed, split, written.spells⟩
  | @answer task _ us _ _ asked reads =>
      have starts := asked.startsAt
      obtain ⟨passed, split, answers⟩ := reads.meets
      cases task with
      | chain level left =>
          obtain ⟨before, rfl, written⟩ := starts
          refine ⟨before ++ passed, by rw [split, List.append_assoc], ?_⟩
          exact (answers before written).spells
      | conditional => exact ⟨passed, starts.trans split, answers.spells⟩
      | binary level => exact ⟨passed, starts.trans split, answers.spells⟩
      | unary => exact ⟨passed, starts.trans split, answers.spells⟩

theorem Reads.suffix (reads : Reads task us (.ok (e, rest))) : rest <:+ us := by
  obtain ⟨passed, rfl, _⟩ := reads.meets
  exact List.suffix_append passed rest

/-- The readers stay within the tokens of the expression. -/
theorem Asked.suffix (asked : Asked ts task entry us) : entry <:+ ts ∧ us <:+ ts := by
  have behind {t : Token} {us : List Token} (suffix : t :: us <:+ ts) : us <:+ ts :=
    (List.suffix_cons t us).trans suffix
  induction asked with
  | expression => exact ⟨List.suffix_rfl, List.suffix_rfl⟩
  | condition _ ih => exact ⟨ih.2, ih.2⟩
  | yes _ first _ ih =>
      have inside := behind (first.suffix.trans ih.2)
      exact ⟨inside, inside⟩
  | no _ first _ second _ ih =>
      have inside := behind (first.suffix.trans ih.2)
      have further := behind (second.suffix.trans inside)
      exact ⟨further, further⟩
  | operand _ ih => exact ⟨ih.2, ih.2⟩
  | chain _ first ih => exact ⟨ih.2, first.suffix.trans ih.2⟩
  | link _ _ ih => exact ⟨behind ih.2, behind ih.2⟩
  | grown _ _ first ih => exact ⟨ih.1, first.suffix.trans (behind ih.2)⟩
  | unary _ _ ih => exact ⟨behind ih.2, behind ih.2⟩
  | inner _ _ ih => exact ⟨behind ih.2, behind ih.2⟩

theorem Made.suffix (made : Made ts entry e rest) : entry <:+ ts := by
  cases made with
  | answer asked _ => exact asked.suffix.1
  | soFar asked => exact asked.suffix.1

end Starting

/-! ## All parts are made -/

/-- The readers have come to each part of an expression. -/
def MadeThroughout (ts : List Token) (e : Expr) : Prop :=
  ∀ address part, e.part? address = some part → ∃ entry rest, Made ts entry part rest

/-- The readers have come to each part of what a task starts from. -/
def Task.LeftMade (ts : List Token) : Task → Prop
  | .chain _ left => MadeThroughout ts left
  | _ => True

theorem Task.leftMade_operand (ts : List Token) (level : Level) : (operand level).LeftMade ts := by
  cases level <;> trivial

section Making

variable {ts entry us : List Token} {task : Task} {reading : Reading}

theorem MadeThroughout.of_children {e : Expr} {entry rest : List Token}
    (made : Made ts entry e rest) (below : ∀ child ∈ e.children, MadeThroughout ts child) :
    MadeThroughout ts e :=
  Expr.forall_part? ⟨entry, rest, made⟩ below

theorem madeThroughout_leaf {t : Token} {entry rest : List Token}
    (made : Made ts entry (leaf t) rest) : MadeThroughout ts (leaf t) := by
  obtain ⟨kept, same, _⟩ := exists_leaf_eq t
  rw [same] at made ⊢
  exact .of_children made (List.forall_mem_nil _)

/-- A reader that answers has come to each part of its answer. -/
theorem Reads.madeThroughout (reads : Reads task us reading) :
    ∀ e rest entry, reading = .ok (e, rest) → Asked ts task entry us → task.LeftMade ts →
      MadeThroughout ts e := by
  induction reads with
  | conditionFails | yesFails | colonMissing | noFails | operandFails | chainFails | unaryFails
  | innerFails | parenMissing | nothing =>
      intro _ _ _ answer
      cases answer
  | condition _ _ ih =>
      intro e rest entry answer asked _
      exact ih e rest _ answer asked.condition trivial
  | choice first asks second divides third ih ihYes ihNo =>
      intro e rest entry answer asked _
      cases answer
      have condition := ih _ _ _ rfl asked.condition trivial
      have yes := ihYes _ _ _ rfl (asked.yes first asks) trivial
      have no := ihNo _ _ _ rfl (asked.no first asks second divides) trivial
      apply MadeThroughout.of_children (.answer asked (.choice first asks second divides third))
      exact List.forall_mem_cons.mpr
        ⟨condition, List.forall_mem_cons.mpr ⟨yes, List.forall_mem_singleton.mpr no⟩⟩
  | operand first _ ih ihChain =>
      intro e rest entry answer asked _
      have left := ih _ _ _ rfl asked.operand (Task.leftMade_operand ts _)
      exact ihChain e rest _ answer (asked.chain first) left
  | chainEnds _ =>
      intro e rest entry answer asked left
      cases answer
      exact left
  | chainGrows isOperator first _ ih ihChain =>
      intro e rest entry answer asked left
      have right := ih _ _ _ rfl (asked.link isOperator) (Task.leftMade_operand ts _)
      have grown := asked.grown isOperator first
      apply ihChain e rest entry answer grown
      apply MadeThroughout.of_children (.soFar grown)
      exact List.forall_mem_cons.mpr ⟨left, List.forall_mem_singleton.mpr right⟩
  | unary isOperator first ih =>
      intro e rest entry answer asked _
      cases answer
      have right := ih _ _ _ rfl (asked.unary isOperator) trivial
      apply MadeThroughout.of_children (.answer asked (.unary isOperator first))
      exact List.forall_mem_singleton.mpr right
  | leaf isLeaf =>
      intro e rest entry answer asked _
      cases answer
      exact madeThroughout_leaf (.answer asked (.leaf isLeaf))
  | group opens first closes ih =>
      intro e rest entry answer asked _
      cases answer
      have inner := ih _ _ _ rfl (asked.inner opens) trivial
      apply MadeThroughout.of_children (.answer asked (.group opens first closes))
      exact List.forall_mem_singleton.mpr inner

theorem madeThroughout_of_parseExpr {e : Expr} {rest : List Token}
    (read : parseExpr ts = .ok (e, rest)) : MadeThroughout ts e :=
  (reads_parseExpr ts).madeThroughout e rest ts read .expression trivial

end Making

/-! ## Statements of a parse -/

/-- The tokens in front of which the rounds of a parse start. -/
inductive RoundAt (r : Recovery) (tokens : List Token) : List Token → Prop where
  | first : RoundAt r tokens tokens
  | behind {ts rest : List Token} {e : Expr} (before : RoundAt r tokens ts)
      (read : parseExpr ts = .ok (e, rest)) : RoundAt r tokens (dropSemicolon rest)
  | resumed {ts : List Token} {failure : Failure} (before : RoundAt r tokens ts)
      (present : ts ≠ []) (read : parseExpr ts = .error failure) :
      RoundAt r tokens (r.resume failure.rest)

theorem RoundAt.suffix {r : Recovery} {tokens ts : List Token} (round : RoundAt r tokens ts) :
    ts <:+ tokens := by
  induction round with
  | first => exact List.suffix_rfl
  | @behind ts rest _ _ read ih =>
      obtain ⟨passed, rfl, _⟩ := exists_written_of_parseExpr read
      obtain ⟨gap, split, _⟩ := exists_append_dropSemicolon rest
      have dropped : dropSemicolon rest <:+ rest := ⟨gap, split.symm⟩
      exact dropped.trans ((List.suffix_append passed rest).trans ih)
  | @resumed ts failure _ _ read ih =>
      obtain ⟨passed, rfl⟩ := exists_passed_of_parseExpr read
      obtain ⟨skipped, split⟩ := r.resume_suffix failure.rest
      have resumed : r.resume failure.rest <:+ failure.rest := ⟨skipped, split⟩
      exact resumed.trans ((List.suffix_append passed failure.rest).trans ih)

/-- Each statement of a run is read in a round of it. -/
theorem Run.exists_roundAt {r : Recovery} {tokens ts : List Token} {es : List Expr}
    {ds : List Diagnostic} (run : Run r ts es ds) (round : RoundAt r tokens ts) :
    ∀ e ∈ es, ∃ us rest, RoundAt r tokens us ∧ parseExpr us = .ok (e, rest) := by
  induction run with
  | finished => exact List.forall_mem_nil _
  | statement read _ ih =>
      exact List.forall_mem_cons.mpr ⟨⟨_, _, round, read⟩, ih (round.behind read)⟩
  | failed present read _ ih => exact ih (round.resumed present read)

/-- The location of an expression is that of the first of the tokens that write it down. -/
theorem Spells.location?_eq {e : Expr} {ts : List Token} (spells : Spells e ts) :
    e.location? = ts.head?.map Token.location := by
  induction spells with
  | literal kept =>
      rw [Expr.location?, ← kept.with_literal]
      rfl
  | grouped _ _ _ => rfl
  | unary _ _ => rfl
  | binary spellsLeft _ ih _ =>
      rw [Expr.location?, ih, List.head?_append_of_ne_nil _ spellsLeft.ne_nil]
  | ternary spellsCondition _ _ _ _ ih _ _ =>
      rw [Expr.location?, ih, List.append_assoc,
        List.head?_append_of_ne_nil _ spellsCondition.ne_nil]

theorem pairwise_location_scan (s : Scanner) (text : Text) :
    (scan s text).tokens.Pairwise fun x y => ¬ y.location.Before x.location :=
  ((Scanner.reaches_scan recognizer false () s text).sound
    (Scanner.sound_reset s text)).pairwise_location

/-- Each part of a statement is located at the first of the tokens that the readers passed over for
it.  In the tokens of a scan, none of the others is located before it. -/
theorem parse_located_leftmost (lp : Parser) (tokens : List Token) {e : Expr}
    (member : e ∈ (lp.parse tokens).statements) :
    ∃ ts rest, RoundAt lp.base.recovery (tokens.filter (·.kind != TokenKind.comment)) ts ∧
      parseExpr ts = .ok (e, rest) ∧
      ∀ address part, e.part? address = some part →
        (∃ entry behind, Made ts entry part behind) ∧
        ∀ entry behind, Made ts entry part behind → ∃ first others,
          entry = first :: others ++ behind ∧ Spells part (first :: others) ∧
          part.location? = some first.location ∧
          ∀ (s : Scanner) (text : Text), tokens = (scan s text).tokens →
            ∀ t ∈ first :: others, ¬ t.location.Before first.location := by
  obtain ⟨ts, rest, round, read⟩ := (run_parse lp tokens).exists_roundAt .first e member
  refine ⟨ts, rest, round, read, ?_⟩
  intro address part found
  refine ⟨madeThroughout_of_parseExpr read address part found, ?_⟩
  intro entry behind made
  obtain ⟨passed, split, spells⟩ := made.exists_spells
  obtain ⟨first, others, rfl⟩ := List.exists_cons_of_ne_nil spells.ne_nil
  refine ⟨first, others, split, spells, spells.location?_eq, ?_⟩
  intro s text scanned
  have inTokens : (first :: others).Sublist tokens := by
    have start : (first :: others).Sublist entry := split ▸ List.sublist_append_left _ _
    exact start.trans ((made.suffix.trans round.suffix).sublist.trans List.filter_sublist)
  have inOrder := (scanned ▸ pairwise_location_scan s text).sublist inTokens
  exact List.forall_mem_cons.mpr ⟨first.location.not_before_self, (List.pairwise_cons.mp inOrder).1⟩

/-- In the text `);1-⏎2-3`, the left part of the statement behind the error is `1-⏎2`. -/
theorem parse_located_leftmost_behind_error :
    ∃ (tokens : List Token) (e part : Expr), e ∈ (Parser.new.parse tokens).statements ∧
      tokens = (scan newScanner [0x29, 0x3B, 0x31, 0x2D, 0x0A, 0x32, 0x2D, 0x33]).tokens ∧
      e.part? [0] = some part ∧ part.location? = some ⟨1, 3⟩ ∧
      ∃ ts entry behind first others, Made ts entry part behind ∧
        entry = first :: others ++ behind ∧ first.location = ⟨1, 3⟩ ∧
        ∀ t ∈ first :: others, ¬ t.location.Before ⟨1, 3⟩ := by
  have member : Expr.binary
      (.binary
        (.literal ⟨Symbol.integer.kind, [0x31], ⟨1, 3⟩, ⟨2, 3⟩, some (.integer 1)⟩)
        ⟨Symbol.minus.kind, [0x2D], ⟨1, 4⟩, ⟨3, 4⟩, none⟩
        (.literal ⟨Symbol.integer.kind, [0x32], ⟨2, 1⟩, ⟨5, 6⟩, some (.integer 2)⟩))
      ⟨Symbol.minus.kind, [0x2D], ⟨2, 2⟩, ⟨6, 7⟩, none⟩
      (.literal ⟨Symbol.integer.kind, [0x33], ⟨2, 3⟩, ⟨7, 8⟩, some (.integer 3)⟩) ∈
        (Parser.new.parse
          (scan newScanner [0x29, 0x3B, 0x31, 0x2D, 0x0A, 0x32, 0x2D, 0x33]).tokens).statements := by
    decide +kernel
  obtain ⟨ts, _, _, _, parts⟩ := parse_located_leftmost Parser.new _ member
  obtain ⟨⟨entry, behind, made⟩, located⟩ := parts [0] _ rfl
  obtain ⟨first, others, split, _, location, inOrder⟩ := located entry behind made
  have place : first.location = ⟨1, 3⟩ := (Option.some_inj.mp location).symm
  refine ⟨_, _, _, member, rfl, rfl, rfl, ts, entry, behind, first, others, made, split, place, ?_⟩
  rw [← place]
  exact inOrder newScanner _ rfl

end Lox

end FrontEnd
