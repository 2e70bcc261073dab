import FrontEnd.Lox.Parser
import FrontEnd.Proofs.Lox.Trees
import FrontEnd.Proofs.Parser.Calls
import FrontEnd.Proofs.Parser.Recovery

/-!
# The course of a parse

A parse of Lox is a sequence of rounds.  A round reads one expression and the semicolon behind
it, or it notes one error and resumes where the next statement may start.  `Run r ts es ds` says
that the rounds over the tokens `ts` read the expressions `es` and note the errors `ds`; it
does not mention the parser, of which only the tokens in front of the cursor matter.

Every parse is such a run (`run_parse`), and the tokens determine the run (`Run.unique`).
-/

namespace FrontEnd

namespace Lox

/-- The error that is noted for a failure to read an expression off the tokens `ts`.  A failure
behind the last token is reported there. -/
def Failure.diagnosticIn (ts : List Token) (failure : Failure) : Diagnostic where
  location :=
    match failure.rest with
    | [] => (ts.getLast?.map Token.location).getD .start
    | t :: _ => t.location
  message := failure.cause.message failure.rest

/-- The tokens behind a semicolon, if there is one. -/
def dropSemicolon : List Token → List Token
  | [] => []
  | t :: rest => if t.kind = Symbol.semicolon.kind then rest else t :: rest

theorem dropSemicolon_cons {s : Token} {rest : List Token}
    (ends : s.kind = Symbol.semicolon.kind) : dropSemicolon (s :: rest) = rest := by
  rw [dropSemicolon, if_pos ends]

theorem dropSemicolon_eq_self {ts : List Token} (other : nextIsOneOf [.semicolon] ts = false) :
    dropSemicolon ts = ts := by
  cases ts with
  | nil => rfl
  | cons t rest => rw [dropSemicolon, if_neg (isOneOf_singleton_eq_false.mp other)]

/-- At most one semicolon is dropped. -/
theorem exists_append_dropSemicolon (ts : List Token) :
    ∃ gap, ts = gap ++ dropSemicolon ts ∧
      (gap = [] ∨ ∃ s : Token, s.kind = Symbol.semicolon.kind ∧ gap = [s]) := by
  cases ts with
  | nil => exact ⟨[], rfl, Or.inl rfl⟩
  | cons t rest =>
      by_cases ends : t.kind = Symbol.semicolon.kind
      · rw [dropSemicolon_cons ends]
        exact ⟨[t], rfl, Or.inr ⟨t, ends, rfl⟩⟩
      · rw [dropSemicolon, if_neg ends]
        exact ⟨[], rfl, Or.inl rfl⟩

/-- A semicolon is no comment. -/
theorem filter_append_semicolon {s : Token} (semicolon : s.kind = Symbol.semicolon.kind)
    (before behind : List Token) :
    (before ++ s :: behind).filter (·.kind != TokenKind.comment) =
      before.filter (·.kind != TokenKind.comment) ++
        s :: behind.filter (·.kind != TokenKind.comment) := by
  have kept : (s.kind != TokenKind.comment) = true := by
    rw [semicolon]
    exact bne_iff_ne.mpr (Symbol.kind_ne_comment _)
  rw [List.filter_append, List.filter_cons, if_pos kept]

/-- The rounds of a parse. -/
inductive Run (r : Recovery) : List Token → List Expr → List Diagnostic → Prop where
  | finished : Run r [] [] []
  | statement {ts rest : List Token} {e : Expr} {es : List Expr} {ds : List Diagnostic}
      (read : parseExpr ts = .ok (e, rest)) (next : Run r (dropSemicolon rest) es ds) :
      Run r ts (e :: es) ds
  | failed {ts : List Token} {failure : Failure} {es : List Expr} {ds : List Diagnostic}
      (present : ts ≠ []) (read : parseExpr ts = .error failure)
      (next : Run r (r.resume failure.rest) es ds) :
      Run r ts es (failure.diagnosticIn ts :: ds)

theorem parseExpr_nil : parseExpr [] = .error ⟨.expectedExpression, []⟩ := by
  have nothing : Reads .unary [] (.error ⟨.expectedExpression, []⟩) := .nothing rfl
  have factor : Reads (.binary .factor) [] _ := .operandFails nothing
  have term : Reads (.binary .term) [] _ := .operandFails factor
  have comparison : Reads (.binary .comparison) [] _ := .operandFails term
  have equality : Reads (.binary .equality) [] _ := .operandFails comparison
  exact (Reads.conditionFails equality).parseExpr_eq

theorem ne_nil_of_parseExpr {ts rest : List Token} {e : Expr}
    (read : parseExpr ts = .ok (e, rest)) : ts ≠ [] := by
  rintro rfl
  rw [parseExpr_nil] at read
  cases read

/-- The tokens determine the run. -/
theorem Run.unique {r : Recovery} {ts : List Token} {es fs : List Expr}
    {ds gs : List Diagnostic} (run : Run r ts es ds) (other : Run r ts fs gs) :
    es = fs ∧ ds = gs := by
  induction run generalizing fs gs with
  | finished =>
      cases other with
      | finished => exact ⟨rfl, rfl⟩
      | statement read _ => exact absurd rfl (ne_nil_of_parseExpr read)
      | failed present _ _ => exact absurd rfl present
  | statement read _ ih =>
      cases other with
      | finished => exact absurd rfl (ne_nil_of_parseExpr read)
      | statement readToo next =>
          have same := Except.ok.inj (read.symm.trans readToo)
          obtain ⟨rfl, rfl⟩ := Prod.mk.inj same
          obtain ⟨rfl, rfl⟩ := ih next
          exact ⟨rfl, rfl⟩
      | failed _ readToo _ => cases read.symm.trans readToo
  | failed present read _ ih =>
      cases other with
      | finished => exact absurd rfl present
      | statement readToo _ => cases read.symm.trans readToo
      | failed _ readToo next =>
          obtain rfl := Except.error.inj (read.symm.trans readToo)
          obtain ⟨rfl, rfl⟩ := ih next
          exact ⟨rfl, rfl⟩

/-! ## The parser runs -/

section Rounds

variable {p : FrontEnd.Parser} {earlier : List Expr}

theorem advanceBy_of_split {passed rest : List Token} (split : p.rest = passed ++ rest) :
    p.advanceBy (p.rest.length - rest.length) =
      { p with consumed := passed.reverse ++ p.consumed, rest := rest } := by
  have count : p.rest.length - rest.length = passed.length := by
    rw [split, List.length_append, Nat.add_sub_cancel]
  rw [count]
  exact p.advanceBy_length passed rest split

/-- The optional semicolon behind a statement. -/
theorem accept_semicolon (p : FrontEnd.Parser) :
    ((ParseAction.accept [Symbol.semicolon.kind]).run p).2.rest = dropSemicolon p.rest ∧
    ((ParseAction.accept [Symbol.semicolon.kind]).run p).2.recovery = p.recovery ∧
    ((ParseAction.accept [Symbol.semicolon.kind]).run p).2.diagnostics = p.diagnostics := by
  cases front : p.rest with
  | nil => simp [ParseAction.accept, Parser.atEnd, front, dropSemicolon]
  | cons t rest =>
      by_cases ends : t.kind = Symbol.semicolon.kind
      · simp [ParseAction.accept, Parser.atEnd, Parser.peek, Parser.advance, front, ends,
          dropSemicolon]
      · simp [ParseAction.accept, Parser.atEnd, Parser.peek, front, ends, dropSemicolon]

theorem statement_of_ok (earlier : List Expr) {e : Expr} {rest : List Token}
    (read : parseExpr p.rest = .ok (e, rest)) :
    ∃ q, (statement earlier).run p = ((.proceed, e :: earlier), q) ∧
      q.rest = dropSemicolon rest ∧ q.recovery = p.recovery ∧
      q.diagnostics = p.diagnostics := by
  obtain ⟨passed, split, _⟩ := exists_written_of_parseExpr read
  have expressionRun : expression.run p =
      (some e, { p with consumed := passed.reverse ++ p.consumed, rest := rest }) := by
    simp only [expression, read]
    rw [advanceBy_of_split split]
  refine ⟨_, ?_, accept_semicolon
    { p with consumed := passed.reverse ++ p.consumed, rest := rest }⟩
  simp only [statement, Action.run_bind, expressionRun]
  rfl

theorem errorLocation_of_split {passed rest : List Token} (split : p.rest = passed ++ rest)
    (present : p.rest ≠ []) (cause : SyntaxError) :
    Parser.errorLocation { p with consumed := passed.reverse ++ p.consumed, rest := rest } =
      (Failure.diagnosticIn p.rest ⟨cause, rest⟩).location := by
  cases rest with
  | cons t rest => rfl
  | nil =>
      rw [List.append_nil] at split
      obtain ⟨last, isLast⟩ := Option.isSome_iff_exists.mp (List.getLast?_isSome.mpr present)
      have previous : (passed.reverse ++ p.consumed).head? = some last := by
        rw [List.head?_append, List.head?_reverse, ← split, isLast, Option.some_or]
      simp only [Parser.errorLocation, Parser.atEnd, Parser.peekPrevious, previous, isLast,
        Failure.diagnosticIn, List.isEmpty_nil, ↓reduceIte, Option.getD_some, Option.map_some]

theorem statement_of_error (earlier : List Expr) {failure : Failure} (present : p.rest ≠ [])
    (read : parseExpr p.rest = .error failure) :
    ∃ q, (statement earlier).run p = ((.proceed, earlier), q) ∧
      q.rest = p.recovery.resume failure.rest ∧ q.recovery = p.recovery ∧
      q.diagnostics.toList = p.diagnostics.toList ++ [failure.diagnosticIn p.rest] := by
  obtain ⟨passed, split⟩ := exists_passed_of_parseExpr read
  have expressionRun : expression.run p = (none, recover p failure) := by
    simp only [expression, read]
  refine ⟨recover p failure, ?_, ?_, ?_, ?_⟩
  · simp only [statement, Action.run_bind, expressionRun]
    rfl
  · rw [recover, advanceBy_of_split split, Parser.synchronize_rest]
    rfl
  · rw [recover, advanceBy_of_split split, Parser.synchronize_recovery]
    rfl
  · rw [recover, advanceBy_of_split split, Parser.synchronize_diagnostics, Parser.report,
      Diagnostics.toList_add, errorLocation_of_split split present failure.cause]
    rfl

theorem length_dropSemicolon_le (ts : List Token) : (dropSemicolon ts).length ≤ ts.length := by
  obtain ⟨gap, split, _⟩ := exists_append_dropSemicolon ts
  have whole := congrArg List.length split
  rw [List.length_append] at whole
  omega

theorem length_lt_of_ok {ts rest : List Token} {e : Expr} (read : parseExpr ts = .ok (e, rest)) :
    (dropSemicolon rest).length < ts.length := by
  obtain ⟨passed, rfl, written⟩ := exists_written_of_parseExpr read
  have some_passed : 0 < passed.length := List.length_pos_iff.mpr written.spells.ne_nil
  have := length_dropSemicolon_le rest
  rw [List.length_append]
  omega

theorem length_lt_of_error (r : Recovery) {ts : List Token} {failure : Failure}
    (present : ts ≠ []) (read : parseExpr ts = .error failure) :
    (r.resume failure.rest).length < ts.length := by
  obtain ⟨passed, rfl⟩ := exists_passed_of_parseExpr read
  by_cases left : failure.rest = []
  · have some_tokens := List.length_pos_iff.mpr present
    rw [left] at some_tokens ⊢
    exact some_tokens
  · have := r.length_resume_lt left
    rw [List.length_append]
    omega

/-- A round that moves the cursor is followed by the next one. -/
theorem parseRest_round {later : List Expr} {q : FrontEnd.Parser} (present : p.rest ≠ [])
    (round : (statement earlier).run p = ((.proceed, later), q))
    (shorter : q.rest.length < p.rest.length) :
    Parser.parseRest grammar false earlier p = Parser.parseRest grammar false later q := by
  have reached : Parser.Reaches p q := by
    have reaches := (statement earlier).reaches p
    rwa [round] at reaches
  have moved : q.position ≠ p.position := by
    have count := reached.tokenCount_eq
    simp only [Parser.tokenCount, Parser.position] at count ⊢
    omega
  have notDone : p.atEnd = false := by
    rw [Parser.atEnd, List.isEmpty_eq_false_iff]
    exact present
  rw [Parser.parseRest, notDone]
  simp only [Bool.false_eq_true, ↓reduceIte, grammar, round, moved, ↓reduceDIte, reduceCtorEq]

/-- The rounds of a parser from some state on. -/
theorem run_parseRest (earlier : List Expr) (p : FrontEnd.Parser) :
    ∃ es ds, Run p.recovery p.rest es ds ∧
      (Parser.parseRest grammar false earlier p).memory = es.reverse ++ earlier ∧
      (Parser.parseRest grammar false earlier p).parser.diagnostics.toList =
        p.diagnostics.toList ++ ds ∧
      (Parser.parseRest grammar false earlier p).stuck = none := by
  -- Every round takes at least one token, also one that fails.
  induction size : p.rest.length using Nat.strongRecOn generalizing p earlier with
  | ind size ih =>
      by_cases present : p.rest = []
      · have done : p.atEnd = true := by rw [Parser.atEnd, present, List.isEmpty_nil]
        rw [Parser.parseRest, done, present]
        exact ⟨[], [], .finished, rfl, (List.append_nil _).symm, rfl⟩
      · cases read : parseExpr p.rest with
        | ok answer =>
            obtain ⟨e, rest⟩ := answer
            obtain ⟨q, round, left, recovery, diagnostics⟩ :=
              statement_of_ok earlier read
            have shorter := length_lt_of_ok read
            rw [← left] at shorter
            rw [parseRest_round present round shorter]
            obtain ⟨es, ds, run, memory, noted, stuck⟩ :=
              ih _ (size ▸ shorter) (e :: earlier) q rfl
            rw [left, recovery] at run
            rw [diagnostics] at noted
            exact ⟨e :: es, ds, .statement read run, by simp [memory], noted, stuck⟩
        | error failure =>
            obtain ⟨q, round, left, recovery, diagnostics⟩ :=
              statement_of_error earlier present read
            have shorter := length_lt_of_error p.recovery present read
            rw [← left] at shorter
            rw [parseRest_round present round shorter]
            obtain ⟨es, ds, run, memory, noted, stuck⟩ := ih _ (size ▸ shorter) earlier q rfl
            rw [left, recovery] at run
            rw [diagnostics] at noted
            exact ⟨es, _ :: ds, .failed present read run, memory, by simp [noted], stuck⟩

end Rounds

/-- A parse that leaves nothing out is a run over all its tokens. -/
theorem run_tokens (p : FrontEnd.Parser) (ts : List Token) :
    Run p.recovery ts (p.parse grammar false [] ts).memory.reverse
      (p.parse grammar false [] ts).parser.diagnostics.toList := by
  by_cases present : ts = []
  · rw [present]
    exact .finished
  · obtain ⟨es, ds, run, memory, noted, stuck⟩ := run_parseRest [] (p.load ts)
    generalize known : Parser.parseRest grammar false [] (p.load ts) = rest at memory noted stuck
    obtain ⟨stop, later, reason⟩ := rest
    obtain rfl : reason = none := stuck
    obtain rfl : later = es.reverse ++ [] := memory
    rw [Parser.parse_of_parseRest present known]
    change Run p.recovery ts (es.reverse ++ []).reverse stop.diagnostics.toList
    change stop.diagnostics.toList = [] ++ ds at noted
    rw [List.append_nil, List.reverse_reverse, noted]
    exact run

/-- Every parse is a run over the tokens that are no comments. -/
theorem run_parse (lp : Parser) (tokens : List Token) :
    Run lp.base.recovery (tokens.filter (·.kind != TokenKind.comment)) (lp.parse tokens).statements
      (lp.parse tokens).diagnostics.toList := by
  rw [Parser.parse_eq]
  exact run_tokens lp.base _

end Lox

end FrontEnd
