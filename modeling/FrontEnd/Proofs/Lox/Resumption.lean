import FrontEnd.Proofs.Lox.Containment
import FrontEnd.Proofs.Parser.Synchronization

/-!
# One error for each failure

A parse of Lox calls its grammar until the tokens are used up.  Each call reads one statement and
notes no error, or notes one error and reads no statement (`Calls`).  A call that fails has come to
a token that fits nowhere, whatever comes behind it (`Reads.lookahead`, `Reads.refused`).  This
token is where the error is reported, and reading goes on at the first place behind it where a
statement may start (`FailsAt`).  So every call moves the cursor, and the errors of later calls are
at later tokens (`parse_call_by_call`).
-/

namespace FrontEnd

/-- The call of the grammar that an event is, if it is one. -/
def Grammar.Event.call? : Grammar.Event → Option Call
  | .called call => some call
  | .begun _ _ => none
  | .finished _ _ => none

namespace Lox

/-! ## The token at which reading fails -/

/-- The symbols of which one is missing. -/
def SyntaxError.wanted : SyntaxError → List Symbol
  | .expectedExpression => starters
  | .expectedColon => [.colon]
  | .expectedParen => [.rightParen]

/-- The same answer with other tokens behind what was read. -/
def Reading.withRest (rest : List Token) : Reading → Reading
  | .error failure => .error { failure with rest := rest }
  | .ok (e, _) => .ok (e, rest)

section Failing

variable {task : Task} {ts front behind : List Token} {reading : Reading}

/-- Reading fails in front of a token that is none of those it needs. -/
theorem Reads.refused (reads : Reads task ts reading) :
    ∀ failure, reading = .error failure →
      nextIsOneOf failure.cause.wanted failure.rest = false := by
  induction reads with
  | conditionFails _ ih => exact ih
  | yesFails _ _ _ _ ih => exact ih
  | noFails _ _ _ _ _ _ _ ih => exact ih
  | operandFails _ ih => exact ih
  | operand _ _ _ ih => exact ih
  | chainFails _ _ ih => exact ih
  | chainGrows _ _ _ _ ih => exact ih
  | unaryFails _ _ ih => exact ih
  | innerFails _ _ ih => exact ih
  | colonMissing _ _ _ missing =>
      rintro _ ⟨⟩
      exact missing
  | parenMissing _ _ missing =>
      rintro _ ⟨⟩
      exact missing
  | nothing missing =>
      rintro _ ⟨⟩
      exact missing
  | condition => rintro _ ⟨⟩
  | choice => rintro _ ⟨⟩
  | chainEnds => rintro _ ⟨⟩
  | unary => rintro _ ⟨⟩
  | leaf => rintro _ ⟨⟩
  | group => rintro _ ⟨⟩

theorem nextIsOneOf_others {symbols : List Symbol} (present : front ≠ [])
    (other : nextIsOneOf symbols (front ++ behind) = false) (others : List Token) :
    nextIsOneOf symbols (front ++ others) = false := by
  rw [nextIsOneOf_append present] at other ⊢
  exact other

/-- A reader looks at no token behind the one in front of which it stops: whatever comes there, it
does the same. -/
theorem Reads.lookahead (reads : Reads task ts reading) (present : front ≠ [])
    (stops : reading.rest = front ++ behind) :
    ∃ passed, ts = passed ++ (front ++ behind) ∧
      ∀ others, Reads task (passed ++ (front ++ others)) (reading.withRest (front ++ others)) := by
  -- What one reader leaves is passed over by the next one up to `front`, so it counts as the front
  -- of the tokens that the first one leaves.
  induction reads generalizing front with
  | conditionFails _ ih =>
      obtain ⟨passed, split, first⟩ := ih present stops
      exact ⟨passed, split, fun others => .conditionFails (first others)⟩
  | condition _ other ih =>
      obtain ⟨passed, split, first⟩ := ih present stops
      obtain rfl : _ = front ++ behind := stops
      exact ⟨passed, split, fun others =>
        .condition (first others) (nextIsOneOf_others present other others)⟩
  | @yesFails _ _ question _ _ _ asks _ ih ihYes =>
      obtain ⟨passed, rfl, second⟩ := ihYes present stops
      obtain ⟨before, rfl, first⟩ :=
        ih (List.cons_ne_nil question (passed ++ front)) (by simp [Reading.rest])
      refine ⟨before ++ question :: passed, by simp, fun others => ?_⟩
      have firstToo := first others
      simp only [List.cons_append, List.append_assoc] at firstToo ⊢
      exact .yesFails firstToo asks (second others)
  | @colonMissing _ _ question _ _ _ _ asks _ missing ih ihYes =>
      obtain rfl : _ = front ++ behind := stops
      obtain ⟨passed, rfl, second⟩ := ihYes present rfl
      obtain ⟨before, rfl, first⟩ :=
        ih (List.cons_ne_nil question (passed ++ front)) (by simp [Reading.rest])
      refine ⟨before ++ question :: passed, by simp, fun others => ?_⟩
      have firstToo := first others
      simp only [List.cons_append, List.append_assoc] at firstToo ⊢
      exact .colonMissing firstToo asks (second others) (nextIsOneOf_others present missing others)
  | @noFails _ _ question _ _ colon _ _ _ asks _ divides _ ih ihYes ihNo =>
      obtain ⟨passed, rfl, third⟩ := ihNo present stops
      obtain ⟨between, rfl, second⟩ :=
        ihYes (List.cons_ne_nil colon (passed ++ front)) (by simp [Reading.rest])
      obtain ⟨before, rfl, first⟩ :=
        ih (List.cons_ne_nil question (between ++ (colon :: (passed ++ front))))
          (by simp [Reading.rest])
      refine ⟨before ++ question :: (between ++ colon :: passed), by simp, fun others => ?_⟩
      have firstToo := first others
      have secondToo := second others
      simp only [List.cons_append, List.append_assoc] at firstToo secondToo ⊢
      exact .noFails firstToo asks secondToo divides (third others)
  | @choice _ _ question _ _ colon _ _ _ _ asks _ divides _ ih ihYes ihNo =>
      obtain ⟨passed, rfl, third⟩ := ihNo present stops
      obtain ⟨between, rfl, second⟩ :=
        ihYes (List.cons_ne_nil colon (passed ++ front)) (by simp [Reading.rest])
      obtain ⟨before, rfl, first⟩ :=
        ih (List.cons_ne_nil question (between ++ (colon :: (passed ++ front))))
          (by simp [Reading.rest])
      refine ⟨before ++ question :: (between ++ colon :: passed), by simp, fun others => ?_⟩
      have firstToo := first others
      have secondToo := second others
      simp only [List.cons_append, List.append_assoc] at firstToo secondToo ⊢
      exact .choice firstToo asks secondToo divides (third others)
  | operandFails _ ih =>
      obtain ⟨passed, split, first⟩ := ih present stops
      exact ⟨passed, split, fun others => .operandFails (first others)⟩
  | operand _ _ ih ihChain =>
      obtain ⟨passed, rfl, second⟩ := ihChain present stops
      obtain ⟨before, rfl, first⟩ :=
        ih (List.append_ne_nil_of_right_ne_nil passed present) (by simp [Reading.rest])
      refine ⟨before ++ passed, by simp, fun others => ?_⟩
      have firstToo := first others
      simp only [List.append_assoc] at firstToo ⊢
      exact .operand firstToo (second others)
  | chainEnds other =>
      obtain rfl : _ = front ++ behind := stops
      exact ⟨[], rfl, fun others => .chainEnds (nextIsOneOf_others present other others)⟩
  | @chainFails _ _ op _ _ isOperator _ ih =>
      obtain ⟨passed, rfl, first⟩ := ih present stops
      exact ⟨op :: passed, rfl, fun others => .chainFails isOperator (first others)⟩
  | @chainGrows _ _ op _ _ _ _ isOperator _ _ ih ihChain =>
      obtain ⟨passed, rfl, second⟩ := ihChain present stops
      obtain ⟨before, rfl, first⟩ :=
        ih (List.append_ne_nil_of_right_ne_nil passed present) (by simp [Reading.rest])
      refine ⟨op :: (before ++ passed), by simp, fun others => ?_⟩
      have firstToo := first others
      simp only [List.cons_append, List.append_assoc] at firstToo ⊢
      exact .chainGrows isOperator firstToo (second others)
  | @unaryFails op _ _ isOperator _ ih =>
      obtain ⟨passed, rfl, first⟩ := ih present stops
      exact ⟨op :: passed, rfl, fun others => .unaryFails isOperator (first others)⟩
  | @unary op _ _ _ isOperator _ ih =>
      obtain ⟨passed, rfl, first⟩ := ih present stops
      exact ⟨op :: passed, rfl, fun others => .unary isOperator (first others)⟩
  | @leaf t _ isLeaf =>
      obtain rfl : _ = front ++ behind := stops
      exact ⟨[t], rfl, fun others => .leaf isLeaf⟩
  | @innerFails paren _ _ opens _ ih =>
      obtain ⟨passed, rfl, first⟩ := ih present stops
      exact ⟨paren :: passed, rfl, fun others => .innerFails opens (first others)⟩
  | @parenMissing paren _ _ _ opens _ missing ih =>
      obtain rfl : _ = front ++ behind := stops
      obtain ⟨passed, rfl, first⟩ := ih present rfl
      exact ⟨paren :: passed, rfl, fun others =>
        .parenMissing opens (first others) (nextIsOneOf_others present missing others)⟩
  | @group paren _ _ close _ opens _ closes ih =>
      obtain rfl : _ = front ++ behind := stops
      obtain ⟨passed, rfl, first⟩ := ih (List.cons_ne_nil close front) rfl
      refine ⟨paren :: (passed ++ [close]), by simp, fun others => ?_⟩
      have firstToo := first others
      simp only [List.cons_append, List.append_assoc, List.nil_append] at firstToo ⊢
      exact .group opens firstToo closes
  | nothing missing =>
      obtain rfl : _ = front ++ behind := stops
      exact ⟨[], rfl, fun others => .nothing (nextIsOneOf_others present missing others)⟩

end Failing

/-! ## The calls of the grammar -/

/-- A statement may start in front of the token with the number `q`, or behind the last one. -/
def MayStartAt (starts : List TokenKind) (ts : List Token) (q : Nat) : Prop :=
  q = ts.length ∨ (∃ t, ts[q - 1]? = some t ∧ t.kind = Symbol.semicolon.kind) ∨
    ∃ t, ts[q]? = some t ∧ t.kind ∈ starts

/-- The call reads the statement `e`, and notes no error. -/
structure Completes (c : Call) (e : Expr) : Prop where
  adds : ∀ earlier, (statement earlier).run c.before = ((c.verdict, e :: earlier), c.after)
  goesOn : c.verdict = .proceed
  noted : c.after.diagnostics = c.before.diagnostics

/-- The call fails at the token with the number `i`, or behind the last one.  It reads no statement
and notes one error, which is located at this token or at the last one, and the next call is at the
first place behind this token where a statement may start. -/
structure FailsAt (starts : List TokenKind) (ts : List Token) (c : Call) (cause : SyntaxError)
    (i : Nat) : Prop where
  adds : ∀ earlier, (statement earlier).run c.before = ((c.verdict, earlier), c.after)
  goesOn : c.verdict = .proceed
  reached : c.before.position ≤ i ∧ i ≤ ts.length
  failed : parseExpr (ts.drop c.before.position) = .error ⟨cause, ts.drop i⟩
  refused : ∀ t, ts[i]? = some t → isOneOf cause.wanted t = false ∧
    ∀ others, parseExpr ((ts.take i).drop c.before.position ++ t :: others) =
      .error ⟨cause, t :: others⟩
  noted : ∃ t, ts[i]?.or ts.getLast? = some t ∧ c.after.diagnostics.toList =
    c.before.diagnostics.toList ++ [⟨t.location, cause.message (ts.drop i)⟩]
  resumes : i < ts.length →
    IsLeast {q | i < q ∧ q ≤ ts.length ∧ MayStartAt starts ts q} c.after.position
  ends : i = ts.length → c.after.position = ts.length

/-- The calls of the grammar over the tokens `ts`, from the state `p` of the parser to the state
`stop`, in which all tokens are used up.  They read the statements `es`. -/
inductive Calls (starts : List TokenKind) (ts : List Token) :
    FrontEnd.Parser → List Call → List Expr → FrontEnd.Parser → Prop where
  | ended {p : FrontEnd.Parser} (tokens : p.tokens = ts) (ended : p.position = ts.length) :
      Calls starts ts p [] [] p
  | completes {c : Call} {calls : List Call} {e : Expr} {es : List Expr} {stop : FrontEnd.Parser}
      (tokens : c.before.tokens = ts) (inFront : c.before.position < ts.length)
      (moves : c.before.position < c.after.position) (first : Completes c e)
      (rest : Calls starts ts c.after calls es stop) :
      Calls starts ts c.before (c :: calls) (e :: es) stop
  | fails {c : Call} {calls : List Call} {cause : SyntaxError} {i : Nat} {es : List Expr}
      {stop : FrontEnd.Parser} (tokens : c.before.tokens = ts)
      (inFront : c.before.position < ts.length) (first : FailsAt starts ts c cause i)
      (rest : Calls starts ts c.after calls es stop) :
      Calls starts ts c.before (c :: calls) es stop

section Course

variable {starts : List TokenKind} {ts : List Token} {p stop : FrontEnd.Parser} {c : Call}
  {calls : List Call} {es : List Expr} {cause : SyntaxError} {i : Nat}

theorem FailsAt.moves (fails : FailsAt starts ts c cause i)
    (inFront : c.before.position < ts.length) :
    c.before.position < c.after.position := by
  obtain ⟨low, high⟩ := fails.reached
  rcases Nat.lt_or_eq_of_le high with before | last
  · exact Nat.lt_of_le_of_lt low (fails.resumes before).1.1
  · rwa [fails.ends last]

/-- What the calls keep: each is in front of a token, and none goes back. -/
theorem Calls.inOrder (course : Calls starts ts p calls es stop) :
    ∀ c ∈ calls, p.position ≤ c.before.position ∧ c.before.position < ts.length := by
  induction course with
  | ended => exact fun _ member => absurd member List.not_mem_nil
  | completes _ inFront moves _ _ ih =>
      refine List.forall_mem_cons.mpr ⟨⟨Nat.le_refl _, inFront⟩, fun d member => ?_⟩
      exact ⟨moves.le.trans (ih d member).1, (ih d member).2⟩
  | fails _ inFront first _ ih =>
      refine List.forall_mem_cons.mpr ⟨⟨Nat.le_refl _, inFront⟩, fun d member => ?_⟩
      exact ⟨(first.moves inFront).le.trans (ih d member).1, (ih d member).2⟩

/-- Errors of later calls are at later tokens. -/
theorem Calls.pairwise (course : Calls starts ts p calls es stop) :
    calls.Pairwise fun c d => ∀ early late i j, FailsAt starts ts c early i →
      FailsAt starts ts d late j → i < j := by
  have later {c : Call} {calls : List Call} {es : List Expr} {stop : FrontEnd.Parser}
      (rest : Calls starts ts c.after calls es stop) :
      ∀ d ∈ calls, ∀ early late i j, FailsAt starts ts c early i →
        FailsAt starts ts d late j → i < j := by
    intro d member early late i j fails failsToo
    obtain ⟨behind, inFront⟩ := rest.inOrder d member
    obtain ⟨low, _⟩ := failsToo.reached
    rcases Nat.lt_or_eq_of_le fails.reached.2 with before | last
    · exact (fails.resumes before).1.1.trans_le (behind.trans low)
    · -- Behind the last token there are no more calls.
      rw [fails.ends last] at behind
      exact absurd inFront (Nat.not_lt.mpr behind)
  induction course with
  | ended => exact .nil
  | completes _ _ _ _ rest ih => exact .cons (later rest) ih
  | fails _ _ _ rest ih => exact .cons (later rest) ih

theorem Calls.each (course : Calls starts ts p calls es stop) :
    ∀ c ∈ calls, (∃ e, Completes c e) ∨ ∃ cause i, FailsAt starts ts c cause i := by
  induction course with
  | ended => exact fun _ member => absurd member List.not_mem_nil
  | completes _ _ _ first _ ih => exact List.forall_mem_cons.mpr ⟨Or.inl ⟨_, first⟩, ih⟩
  | fails _ _ first _ ih => exact List.forall_mem_cons.mpr ⟨Or.inr ⟨_, _, first⟩, ih⟩

theorem Calls.chain (course : Calls starts ts p calls es stop) : Call.Chain p calls stop := by
  induction course with
  | ended => rfl
  | completes _ _ _ _ _ ih => exact ⟨rfl, ih⟩
  | fails _ _ _ _ ih => exact ⟨rfl, ih⟩

theorem Calls.position_stop (course : Calls starts ts p calls es stop) :
    stop.position = ts.length := by
  induction course with
  | ended _ ended => exact ended
  | completes _ _ _ _ _ ih => exact ih
  | fails _ _ _ _ ih => exact ih

/-- Each call makes one statement or one error. -/
theorem Calls.count (course : Calls starts ts p calls es stop) :
    es.length + stop.diagnostics.toList.length =
      p.diagnostics.toList.length + calls.length := by
  induction course with
  | ended => rw [List.length_nil, List.length_nil, Nat.zero_add, Nat.add_zero]
  | completes _ _ _ first _ ih =>
      rw [first.noted] at ih
      rw [List.length_cons, List.length_cons]
      omega
  | fails _ _ first _ ih =>
      obtain ⟨t, _, noted⟩ := first.noted
      rw [noted, List.length_append, List.length_singleton] at ih
      rw [List.length_cons]
      omega

/-- All errors are those of the calls. -/
theorem Calls.exists_cause (course : Calls starts ts p calls es stop) :
    ∀ d ∈ stop.diagnostics.toList, d ∈ p.diagnostics.toList ∨
      ∃ (cause : SyntaxError) (rest : List Token), d.message = cause.message rest := by
  induction course with
  | ended => exact fun _ member => Or.inl member
  | completes _ _ _ first _ ih =>
      rw [first.noted] at ih
      exact ih
  | fails _ _ first _ ih =>
      obtain ⟨t, _, noted⟩ := first.noted
      intro d member
      rcases ih d member with earlier | caused
      · rw [noted, List.mem_append, List.mem_singleton] at earlier
        rcases earlier with earlier | rfl
        · exact Or.inl earlier
        · exact Or.inr ⟨_, _, rfl⟩
      · exact Or.inr caused

end Course

/-! ## What a call comes to -/

section Call

variable {starts : List TokenKind} {p : FrontEnd.Parser} {failure : Failure}

theorem resumesAt_iff (starts : List TokenKind) (ts : List Token) (q : Nat) :
    (Parser.withStarts starts).base.recovery.ResumesAt ts q ↔ MayStartAt starts ts q := by
  have positive : 0 < Symbol.semicolon.kind := by decide
  simp only [Parser.withStarts, FrontEnd.Parser.new, Recovery.ResumesAt, positive, true_and,
    Option.some.injEq, exists_and_left, exists_eq_left', KeywordSet.mem_members_ofList, MayStartAt]

theorem rest_eq_drop (p : FrontEnd.Parser) : p.rest = p.tokens.drop p.position := by
  rw [FrontEnd.Parser.tokens, FrontEnd.Parser.position, ← List.length_reverse, List.drop_left]

theorem run_statement_of_error (read : parseExpr p.rest = .error failure) (earlier : List Expr) :
    (statement earlier).run p = ((.proceed, earlier), recover p failure) := by
  have failed : expression.run p = (none, recover p failure) := by simp only [expression, read]
  simp only [statement, Action.run_bind, failed]
  rfl

/-- The statements read before make no difference to a call. -/
theorem run_statement (earlier : List Expr) (p : FrontEnd.Parser) :
    (statement earlier).run p = ((.proceed, ((statement []).run p).1.2 ++ earlier),
      ((statement []).run p).2) := by
  simp only [statement, Action.run_bind]
  cases (expression.run p).1 with
  | none => rfl
  | some e => rfl

theorem completes_of_ok {e : Expr} {rest : List Token} (read : parseExpr p.rest = .ok (e, rest)) :
    ∃ q, Completes ⟨p, .proceed, q⟩ e ∧ q.rest.length < p.rest.length := by
  obtain ⟨q, run, left, _, diagnostics⟩ := statement_of_ok [] read
  refine ⟨q, ⟨fun earlier => ?_, rfl, diagnostics⟩, ?_⟩
  · rw [run_statement, run]
    rfl
  · rw [left]
    exact length_lt_of_ok read

/-- Where the parser is when it notes an error, and where it goes from there. -/
theorem position_recover {passed : List Token} (split : p.rest = passed ++ failure.rest)
    (recovery : p.recovery = (Parser.withStarts starts).base.recovery) :
    (p.position + passed.length < p.tokens.length →
        IsLeast {q | p.position + passed.length < q ∧ q ≤ p.tokens.length ∧
          MayStartAt starts p.tokens q} (recover p failure).position) ∧
      (p.position + passed.length = p.tokens.length →
        (recover p failure).position = p.tokens.length) := by
  let failing : FrontEnd.Parser :=
    { p with consumed := passed.reverse ++ p.consumed, rest := failure.rest }
  let noted := failing.report failing.errorLocation (failure.cause.message failure.rest)
  have recovered : recover p failure = noted.synchronize := by
    rw [recover, advanceBy_of_split split]
  have tokens : noted.tokens = p.tokens := by
    change (passed.reverse ++ p.consumed).reverse ++ failure.rest = p.consumed.reverse ++ p.rest
    rw [split, List.reverse_append, List.reverse_reverse, List.append_assoc]
  have position : noted.position = p.position + passed.length := by
    change (passed.reverse ++ p.consumed).length = p.consumed.length + passed.length
    rw [List.length_append, List.length_reverse, Nat.add_comm]
  have known : noted.recovery = (Parser.withStarts starts).base.recovery := recovery
  rw [recovered]
  constructor
  · intro inFront
    rw [← position, ← tokens] at inFront
    have least := Parser.position_synchronize_of_inFront inFront
    simpa only [position, tokens, known, resumesAt_iff] using least
  · intro ended
    rw [← position, ← tokens] at ended
    rw [Parser.position_synchronize_of_atEnd ended, tokens]

/-- A failure is reported at the token in front of which it is, or at the last one. -/
theorem exists_location_eq {ts : List Token} {k i : Nat} (inFront : k < ts.length)
    (left : failure.rest = ts.drop i) :
    ∃ t, ts[i]?.or ts.getLast? = some t ∧
      (failure.diagnosticIn (ts.drop k)).location = t.location := by
  have here : ts[i]? = failure.rest.head? := by rw [left, List.head?_drop]
  cases rest : failure.rest with
  | cons t rest =>
      refine ⟨t, ?_, ?_⟩
      · rw [here, rest]
        rfl
      · simp only [Failure.diagnosticIn, rest]
  | nil =>
      have present : ts ≠ [] := List.ne_nil_of_length_pos (by omega)
      obtain ⟨last, isLast⟩ := Option.isSome_iff_exists.mp (List.getLast?_isSome.mpr present)
      refine ⟨last, ?_, ?_⟩
      · rw [here, rest]
        exact isLast
      · have same : (ts.drop k).getLast? = some last := by
          rw [List.getLast?_drop, if_neg (Nat.not_le.mpr inFront), isLast]
        simp only [Failure.diagnosticIn, rest, same, Option.map_some, Option.getD_some]

theorem failsAt_of_error (recovery : p.recovery = (Parser.withStarts starts).base.recovery)
    (present : p.rest ≠ []) (read : parseExpr p.rest = .error failure) :
    ∃ i, FailsAt starts p.tokens ⟨p, .proceed, recover p failure⟩ failure.cause i := by
  obtain ⟨passed, split⟩ := exists_passed_of_parseExpr read
  have run := run_statement_of_error read
  have total := p.length_tokens
  have inFront : p.position < p.tokens.length := by
    have := List.length_pos_iff.mpr present
    omega
  have left : failure.rest = p.tokens.drop (p.position + passed.length) := by
    rw [← List.drop_drop, ← rest_eq_drop, split, List.drop_left]
  have between : (p.tokens.take (p.position + passed.length)).drop p.position = passed := by
    rw [List.drop_take, ← rest_eq_drop, split, Nat.add_sub_cancel_left, List.take_left]
  obtain ⟨resumes, ends⟩ := position_recover split recovery
  rw [split, List.length_append] at total
  refine ⟨p.position + passed.length, run, rfl, ⟨Nat.le_add_right _ _, by omega⟩, ?_, ?_, ?_,
    resumes, ends⟩
  · rw [← rest_eq_drop, read, ← left]
  · intro t here
    rw [← List.head?_drop, ← left] at here
    obtain ⟨behind, rest⟩ : ∃ behind, failure.rest = [t] ++ behind :=
      ⟨_, (List.head?_eq_some_iff.mp here).choose_spec⟩
    have reads := reads_parseExpr p.rest
    rw [read] at reads
    have refused := reads.refused failure rfl
    rw [rest] at refused
    refine ⟨refused, fun others => ?_⟩
    obtain ⟨front, same, whatever⟩ := reads.lookahead (List.cons_ne_nil t []) rest
    rw [← rest] at same
    obtain rfl := List.append_cancel_right (split.symm.trans same)
    rw [between]
    exact (whatever others).parseExpr_eq
  · obtain ⟨q, runToo, _, _, diagnostics⟩ := statement_of_error [] present read
    obtain rfl : recover p failure = q := congrArg Prod.snd ((run []).symm.trans runToo)
    obtain ⟨t, found, location⟩ := exists_location_eq inFront left
    refine ⟨t, found, ?_⟩
    rw [diagnostics, ← left, ← location, ← rest_eq_drop]
    rfl

theorem exists_calls {ts : List Token} (tokens : p.tokens = ts)
    (recovery : p.recovery = (Parser.withStarts starts).base.recovery) :
    ∃ calls es stop, Calls starts ts p calls es stop := by
  subst tokens
  induction size : p.rest.length using Nat.strongRecOn generalizing p with
  | ind size ih =>
      have total := p.length_tokens
      by_cases present : p.rest = []
      · exact ⟨[], [], p, .ended rfl (Parser.rest_eq_nil_iff.mp present)⟩
      have inFront : p.position < p.tokens.length := by
        have := List.length_pos_iff.mpr present
        omega
      cases read : parseExpr p.rest with
      | ok answer =>
          obtain ⟨e, rest⟩ := answer
          obtain ⟨q, first, shorter⟩ := completes_of_ok read
          have reaches : Parser.Reaches p q := by
            have steps := (statement []).reaches p
            rwa [first.adds []] at steps
          have count := reaches.tokenCount_eq
          have moves : p.position < q.position := by
            simp only [Parser.tokenCount, Parser.position] at count ⊢
            omega
          obtain ⟨calls, es, stop, rest⟩ :=
            ih _ (size ▸ shorter) (reaches.recovery_eq.trans recovery) rfl
          rw [reaches.tokens_eq] at rest
          exact ⟨_, _, stop, .completes (c := ⟨p, .proceed, q⟩) rfl inFront moves first rest⟩
      | error failure =>
          have reaches := reaches_recover p failure
          obtain ⟨i, first⟩ := failsAt_of_error recovery present read
          have shorter := reaches.length_lt (Nat.ne_of_gt (first.moves inFront))
          obtain ⟨calls, es, stop, rest⟩ :=
            ih _ (size ▸ shorter) (reaches.recovery_eq.trans recovery) rfl
          rw [reaches.tokens_eq] at rest
          exact ⟨_, es, stop, .fails (c := ⟨p, .proceed, recover p failure⟩) rfl inFront first rest⟩

end Call

/-! ## The whole parse -/

section Loop

variable {starts : List TokenKind} {ts : List Token} {p q stop : FrontEnd.Parser}
  {calls : List Call} {es : List Expr}

theorem rest_ne_nil (tokens : p.tokens = ts) (inFront : p.position < ts.length) : p.rest ≠ [] := by
  subst tokens
  exact mt Parser.rest_eq_nil_iff.mp (Nat.ne_of_lt inFront)

/-- A call that moves the cursor is followed by the next one, also in a strict parse. -/
theorem parseRest_of_moves {σ : Type} {g : Grammar σ} {memory next : σ} (strict : Bool)
    (inFront : p.rest ≠ []) (run : (g.parse memory).run p = ((.proceed, next), q))
    (moves : p.position < q.position) :
    Parser.parseRest g strict memory p = Parser.parseRest g strict next q := by
  have notDone : ¬ p.atEnd = true := mt List.isEmpty_iff.mp inFront
  rw [Parser.parseRest, if_neg notDone, run]
  simp only [reduceCtorEq, ↓reduceIte, Nat.ne_of_gt moves, ↓reduceDIte]

theorem parseRest_of_ended {σ : Type} (g : Grammar σ) (strict : Bool) (memory : σ)
    (tokens : p.tokens = ts) (ended : p.position = ts.length) :
    Parser.parseRest g strict memory p = ⟨p, memory, none⟩ := by
  subst tokens
  have done : p.atEnd = true := List.isEmpty_iff.mpr (Parser.rest_eq_nil_iff.mpr ended)
  rw [Parser.parseRest, if_pos done]

/-- A parse makes these calls and no others, with any grammar that does to the parser what the
grammar of Lox does, whatever it remembers of the statements and of the calls. -/
theorem Calls.parseRest_eq (course : Calls starts ts p calls es stop) {σ : Type} (g : Grammar σ)
    (memory : List Expr → List Call → σ)
    (follows : ∀ (c : Call) (earlier later : List Expr) (made : List Call), c.verdict = .proceed →
      (statement earlier).run c.before = ((c.verdict, later), c.after) →
      (g.parse (memory earlier made)).run c.before =
        ((.proceed, memory later (c :: made)), c.after))
    (strict : Bool) (earlier : List Expr) (made : List Call) :
    Parser.parseRest g strict (memory earlier made) p =
      ⟨stop, memory (es.reverse ++ earlier) (calls.reverse ++ made), none⟩ := by
  induction course generalizing earlier made with
  | ended tokens ended => exact parseRest_of_ended g strict _ tokens ended
  | @completes c _ e _ _ tokens inFront moves first _ ih =>
      have run := follows c earlier (e :: earlier) made first.goesOn (first.adds earlier)
      rw [parseRest_of_moves strict (rest_ne_nil tokens inFront) run moves, ih]
      simp only [List.reverse_cons, List.append_assoc, List.singleton_append]
  | @fails c _ _ _ _ _ tokens inFront first _ ih =>
      have run := follows c earlier earlier made first.goesOn (first.adds earlier)
      rw [parseRest_of_moves strict (rest_ne_nil tokens inFront) run (first.moves inFront), ih]
      simp only [List.reverse_cons, List.append_assoc, List.singleton_append]

theorem Calls.eq_of_nil (course : Calls starts [] (p.load []) calls es stop) :
    calls = [] ∧ es = [] ∧ stop = p.load [] := by
  generalize known : p.load [] = start at course
  cases course with
  | ended => exact ⟨rfl, rfl, rfl⟩
  | completes _ inFront => exact absurd inFront (Nat.not_lt_zero _)
  | fails _ inFront => exact absurd inFront (Nat.not_lt_zero _)

theorem Calls.parse_eq (course : Calls starts ts (p.load ts) calls es stop) (strict : Bool) :
    p.parse grammar strict [] ts = ⟨stop, es.reverse, none⟩ := by
  by_cases present : ts = []
  · subst present
    obtain ⟨-, rfl, rfl⟩ := course.eq_of_nil
    rfl
  · have rest := course.parseRest_eq grammar (fun es _ => es)
      (fun _ _ _ _ goesOn run => by rw [← goesOn]; exact run) strict [] []
    rw [List.append_nil] at rest
    exact Parser.parse_of_parseRest present rest

theorem Calls.parse_logged_eq (course : Calls starts ts (p.load ts) calls es stop)
    (strict : Bool) :
    ∃ log, p.parse grammar.logged strict ([], []) ts = ⟨stop, (es.reverse, log), none⟩ ∧
      log.reverse.filterMap Grammar.Event.call? = calls := by
  by_cases present : ts = []
  · subst present
    obtain ⟨rfl, rfl, rfl⟩ := course.eq_of_nil
    exact ⟨[], rfl, rfl⟩
  · let log (made : List Call) : List Grammar.Event :=
      made.map .called ++ [.begun (p.load ts) (p.load ts)]
    have rest := course.parseRest_eq grammar.logged (fun es made => (es, log made))
      (fun c earlier later made goesOn run => by
        obtain ⟨before, verdict, after⟩ := c
        obtain rfl : verdict = .proceed := goesOn
        have known : (grammar.parse earlier).run before = ((.proceed, later), after) := run
        rw [Parser.run_logged, known]
        rfl) strict [] []
    rw [List.append_nil, List.append_nil] at rest
    refine ⟨.finished stop stop :: log calls.reverse,
      (Parser.parse_of_parseRest present rest).trans rfl, ?_⟩
    have kept : (calls.map Grammar.Event.called).filterMap Grammar.Event.call? = calls := by
      rw [List.filterMap_map]
      exact List.filterMap_some
    have begun : [Grammar.Event.begun (p.load ts) (p.load ts)].filterMap Grammar.Event.call? = [] :=
      rfl
    have finished : [Grammar.Event.finished stop stop].filterMap Grammar.Event.call? = [] := rfl
    simp only [log, List.map_reverse, List.reverse_cons, List.reverse_append, List.reverse_nil,
      List.reverse_reverse, List.nil_append, List.filterMap_append, kept, begun, finished,
      List.append_nil]

/-- No error of an expression is the one for a parse that is stuck. -/
theorem SyntaxError.message_ne_stuck (cause : SyntaxError) (rest : List Token) (lexeme : Text) :
    cause.message rest ≠ Parser.stuckDiagnostic lexeme := by
  have stuck : (Parser.stuckDiagnostic lexeme).head? = some 0x70 := rfl
  have other : (cause.message rest).head? = some 0x75 ∨ (cause.message rest).head? = some 0x65 := by
    cases cause with
    | expectedExpression =>
        left
        cases rest with
        | nil => rfl
        | cons t rest =>
            change (unexpectedMessage t).head? = some 0x75
            unfold unexpectedMessage
            dsimp only
            split
            · rfl
            · rfl
    | expectedColon => exact Or.inr rfl
    | expectedParen => exact Or.inr rfl
  intro same
  rw [same, stuck] at other
  revert other
  decide

end Loop

/-- A parse goes call by call, strict or not: each call reads one statement or notes one error, and
an error is located at the token at which its call fails.  The next call is at the first place
behind this token where a statement may start, so errors of later calls are at later tokens.  The
calls use up all tokens, and the parse itself notes no errors. -/
theorem parse_call_by_call (starts : List TokenKind) (strict : Bool) (tokens : List Token) :
    let ts := tokens.filter (·.kind != TokenKind.comment)
    let lp := Parser.withStarts starts
    let logged := lp.base.parse grammar.logged strict ([], []) ts
    let calls := logged.memory.2.reverse.filterMap Grammar.Event.call?
    lp.base.parse grammar strict [] ts =
        ⟨(lp.parse tokens).base, (lp.parse tokens).statements.reverse, none⟩ ∧
      logged.parser = (lp.parse tokens).base ∧ logged.stuck = none ∧
      Call.Chain (lp.base.load ts) calls (lp.parse tokens).base ∧
      (∀ c ∈ calls, (∃ e, Completes c e) ∨ ∃ cause i, FailsAt starts ts c cause i) ∧
      (lp.parse tokens).statements.length + (lp.parse tokens).diagnostics.toList.length =
        calls.length ∧
      calls.Pairwise (fun c d => ∀ early late i j, FailsAt starts ts c early i →
        FailsAt starts ts d late j → i < j) ∧
      (lp.parse tokens).base.position = ts.length ∧
      ∀ d ∈ (lp.parse tokens).diagnostics.toList, ∀ lexeme,
        d.message ≠ Parser.stuckDiagnostic lexeme := by
  intro ts lp
  have loaded : (lp.base.load ts).tokens = ts := rfl
  have recovery : (lp.base.load ts).recovery = (Parser.withStarts starts).base.recovery := rfl
  obtain ⟨made, es, stop, course⟩ := exists_calls loaded recovery
  obtain ⟨log, logged, kept⟩ := course.parse_logged_eq strict
  have parsed : lp.parse tokens = ⟨stop, es⟩ := by
    rw [Parser.parse_eq, course.parse_eq false, List.reverse_reverse]
  rw [logged, parsed]
  dsimp only
  rw [kept]
  refine ⟨course.parse_eq strict, rfl, rfl, course.chain, course.each, ?_, course.pairwise,
    course.position_stop, fun d member lexeme => ?_⟩
  · exact course.count.trans (Nat.zero_add _)
  · rcases course.exists_cause d member with earlier | ⟨cause, rest, caused⟩
    · cases earlier
    · rw [caused]
      exact cause.message_ne_stuck rest lexeme

end Lox

end FrontEnd
