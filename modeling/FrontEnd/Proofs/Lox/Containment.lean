import FrontEnd.Proofs.Lox.Run

/-!
# Semicolons keep statements apart

No expression goes on behind a semicolon, and recovery from an error goes no further than right
behind one.  So what comes behind a semicolon is parsed as if it stood alone, and it does not
change what is made of the tokens up to the semicolon (`parse_append_semicolon`).

The proof follows a parse whose last token is a semicolon, and puts more tokens behind it.  The
readers notice nothing of these (`Reads.frame`), as they never get past the semicolon, and what
passes over tokens between two expressions stops at the semicolon (`StopsAt`).
-/

namespace FrontEnd

namespace Lox

namespace Reading

/-- The tokens behind what was read. -/
def rest : Reading → List Token
  | .error failure => failure.rest
  | .ok (_, rest) => rest

/-- The same answer with more tokens behind. -/
def extend (behind : List Token) : Reading → Reading
  | .error failure => .error { failure with rest := failure.rest ++ behind }
  | .ok (e, rest) => .ok (e, rest ++ behind)

end Reading

section Frame

variable {s t : Token} {ts : List Token} {symbols : List Symbol}

/-- A token of an expression is passed over without reaching the semicolon. -/
theorem suffix_of_isOneOf (semicolon : s.kind = Symbol.semicolon.kind)
    (one : isOneOf symbols t = true) (other : Symbol.semicolon ∉ symbols)
    (last : [s] <:+ t :: ts) : [s] <:+ ts := by
  rcases List.suffix_cons_iff.mp last with same | last
  · obtain ⟨rfl, rfl⟩ := List.cons.inj same
    rw [isOneOf_of_kind semicolon, decide_eq_true_iff] at one
    exact absurd one other
  · exact last

theorem suffix_of_kind (semicolon : s.kind = Symbol.semicolon.kind) {symbol : Symbol}
    (known : t.kind = symbol.kind) (other : symbol ≠ .semicolon)
    (last : [s] <:+ t :: ts) : [s] <:+ ts := by
  apply suffix_of_isOneOf semicolon (isOneOf_singleton.mpr known) _ last
  intro member
  exact other (List.mem_singleton.mp member).symm

theorem nextIsOneOf_frame (last : [s] <:+ ts) (behind : List Token) :
    nextIsOneOf symbols (ts ++ behind) = nextIsOneOf symbols ts := by
  apply nextIsOneOf_append
  rintro rfl
  cases List.suffix_nil.mp last

/-- A reader stops in front of a semicolon, and what comes behind it makes no difference. -/
theorem Reads.frame {task : Task} {reading : Reading} (reads : Reads task ts reading)
    (semicolon : s.kind = Symbol.semicolon.kind) (last : [s] <:+ ts) (behind : List Token) :
    [s] <:+ reading.rest ∧ Reads task (ts ++ behind) (reading.extend behind) := by
  induction reads with
  | conditionFails _ ih =>
      obtain ⟨left, first⟩ := ih last
      exact ⟨left, .conditionFails first⟩
  | condition _ stops ih =>
      obtain ⟨left, first⟩ := ih last
      exact ⟨left, .condition first ((nextIsOneOf_frame left behind).trans stops)⟩
  | yesFails _ asks _ ih ihYes =>
      obtain ⟨left, first⟩ := ih last
      obtain ⟨left, second⟩ := ihYes (suffix_of_kind semicolon asks (by decide) left)
      exact ⟨left, .yesFails first asks second⟩
  | colonMissing _ asks _ missing ih ihYes =>
      obtain ⟨left, first⟩ := ih last
      obtain ⟨left, second⟩ := ihYes (suffix_of_kind semicolon asks (by decide) left)
      exact ⟨left, .colonMissing first asks second
        ((nextIsOneOf_frame left behind).trans missing)⟩
  | noFails _ asks _ divides _ ih ihYes ihNo =>
      obtain ⟨left, first⟩ := ih last
      obtain ⟨left, second⟩ := ihYes (suffix_of_kind semicolon asks (by decide) left)
      obtain ⟨left, third⟩ := ihNo (suffix_of_kind semicolon divides (by decide) left)
      exact ⟨left, .noFails first asks second divides third⟩
  | choice _ asks _ divides _ ih ihYes ihNo =>
      obtain ⟨left, first⟩ := ih last
      obtain ⟨left, second⟩ := ihYes (suffix_of_kind semicolon asks (by decide) left)
      obtain ⟨left, third⟩ := ihNo (suffix_of_kind semicolon divides (by decide) left)
      exact ⟨left, .choice first asks second divides third⟩
  | operandFails _ ih =>
      obtain ⟨left, first⟩ := ih last
      exact ⟨left, .operandFails first⟩
  | operand _ _ ih ihChain =>
      obtain ⟨left, first⟩ := ih last
      obtain ⟨left, second⟩ := ihChain left
      exact ⟨left, .operand first second⟩
  | chainEnds stops =>
      exact ⟨last, .chainEnds ((nextIsOneOf_frame last behind).trans stops)⟩
  | @chainFails level _ _ _ _ isOperator _ ih =>
      have other : Symbol.semicolon ∉ level.operators := by cases level <;> decide
      obtain ⟨left, first⟩ := ih (suffix_of_isOneOf semicolon isOperator other last)
      exact ⟨left, .chainFails isOperator first⟩
  | @chainGrows level _ _ _ _ _ _ isOperator _ _ ih ihChain =>
      have other : Symbol.semicolon ∉ level.operators := by cases level <;> decide
      obtain ⟨left, first⟩ := ih (suffix_of_isOneOf semicolon isOperator other last)
      obtain ⟨left, second⟩ := ihChain left
      exact ⟨left, .chainGrows isOperator first second⟩
  | unaryFails isOperator _ ih =>
      obtain ⟨left, first⟩ := ih (suffix_of_isOneOf semicolon isOperator (by decide) last)
      exact ⟨left, .unaryFails isOperator first⟩
  | unary isOperator _ ih =>
      obtain ⟨left, first⟩ := ih (suffix_of_isOneOf semicolon isOperator (by decide) last)
      exact ⟨left, .unary isOperator first⟩
  | leaf isLeaf =>
      exact ⟨suffix_of_isOneOf semicolon isLeaf (by decide) last, .leaf isLeaf⟩
  | innerFails opens _ ih =>
      obtain ⟨left, first⟩ := ih (suffix_of_kind semicolon opens (by decide) last)
      exact ⟨left, .innerFails opens first⟩
  | parenMissing opens _ missing ih =>
      obtain ⟨left, first⟩ := ih (suffix_of_kind semicolon opens (by decide) last)
      exact ⟨left, .parenMissing opens first ((nextIsOneOf_frame left behind).trans missing)⟩
  | group opens _ closes ih =>
      obtain ⟨left, first⟩ := ih (suffix_of_kind semicolon opens (by decide) last)
      exact ⟨suffix_of_kind semicolon closes (by decide) left, .group opens first closes⟩
  | nothing missing =>
      exact ⟨last, .nothing ((nextIsOneOf_frame last behind).trans missing)⟩

theorem parseExpr_frame {reading : Reading} (read : parseExpr ts = reading)
    (semicolon : s.kind = Symbol.semicolon.kind) (last : [s] <:+ ts) (behind : List Token) :
    [s] <:+ reading.rest ∧ parseExpr (ts ++ behind) = reading.extend behind := by
  obtain ⟨left, reads⟩ := (read ▸ reads_parseExpr ts).frame semicolon last behind
  exact ⟨left, reads.parseExpr_eq⟩

/-- An error is reported alike, whatever comes behind the token `s`. -/
theorem Failure.diagnosticIn_frame (cause : SyntaxError) (before left behind : List Token) :
    diagnosticIn (before ++ s :: behind) ⟨cause, left ++ s :: behind⟩ =
      diagnosticIn (before ++ [s]) ⟨cause, left ++ [s]⟩ := by
  cases left <;> cases cause <;> rfl

end Frame

theorem stopsAt_dropSemicolon {s : Token} (semicolon : s.kind = Symbol.semicolon.kind) :
    StopsAt dropSemicolon s := by
  intro before
  cases before with
  | nil =>
      right
      intro behind
      exact dropSemicolon_cons semicolon
  | cons t before =>
      left
      by_cases ends : t.kind = Symbol.semicolon.kind
      · refine ⟨before, fun behind => ?_⟩
        exact dropSemicolon_cons ends
      · refine ⟨t :: before, fun behind => ?_⟩
        rw [List.cons_append, dropSemicolon, if_neg ends]

namespace Run

variable {r : Recovery} {s : Token} {ts behind : List Token} {es fs : List Expr}
  {ds gs : List Diagnostic}

theorem eq_nil (run : Run r [] es ds) : es = [] ∧ ds = [] :=
  run.unique .finished

/-- Between two expressions a run gets behind the semicolon or stays in front of it. -/
theorem pass {pass : List Token → List Token} {before : List Token} (stops : StopsAt pass s)
    (next : Run r (pass (before ++ [s])) es ds)
    (ih : ∀ left, pass (before ++ [s]) = left ++ [s] →
      Run r (left ++ s :: behind) (es ++ fs) (ds ++ gs))
    (after : Run r behind fs gs) :
    Run r (pass (before ++ s :: behind)) (es ++ fs) (ds ++ gs) := by
  rcases stops before with ⟨left, inFront⟩ | rightBehind
  · rw [inFront behind]
    exact ih left (inFront [])
  · rw [rightBehind [] ] at next
    obtain ⟨rfl, rfl⟩ := next.eq_nil
    rw [rightBehind behind]
    exact after

/-- A run up to a semicolon and a run over what comes behind make one run. -/
theorem append (semicolon : s.kind = Symbol.semicolon.kind) (ends : r.endsBehind s = true)
    (after : Run r behind fs gs) (run : Run r ts es ds) :
    ∀ before, ts = before ++ [s] → Run r (before ++ s :: behind) (es ++ fs) (ds ++ gs) := by
  -- As long as the run is not over, the semicolon is still in front of it.
  induction run with
  | finished =>
      intro before split
      exact absurd split.symm (by simp)
  | statement read next ih =>
      intro before split
      subst split
      obtain ⟨last, readMore⟩ :=
        parseExpr_frame read semicolon (List.suffix_append before [s]) behind
      obtain ⟨left, rfl⟩ := last
      rw [Reading.extend, List.append_assoc, List.append_assoc] at readMore
      exact .statement readMore (next.pass (stopsAt_dropSemicolon semicolon) ih after)
  | @failed _ failure _ _ _ read next ih =>
      intro before split
      subst split
      obtain ⟨last, readMore⟩ :=
        parseExpr_frame read semicolon (List.suffix_append before [s]) behind
      obtain ⟨cause, rest⟩ := failure
      obtain ⟨left, rfl⟩ := last
      have further := next.pass (r.stopsAt_resume ends) ih after
      rw [Reading.extend, List.append_assoc, List.append_assoc] at readMore
      rw [← Failure.diagnosticIn_frame cause before left behind]
      exact .failed (by simp) readMore further

end Run

/-- What is behind a semicolon is parsed as if it stood alone, and what is in front of it as if
nothing came behind. -/
theorem parse_append_semicolon (starts : List TokenKind) (before behind : List Token) {s : Token}
    (semicolon : s.kind = Symbol.semicolon.kind) :
    ((Parser.withStarts starts).parse (before ++ [s] ++ behind)).statements =
        ((Parser.withStarts starts).parse (before ++ [s])).statements ++
          ((Parser.withStarts starts).parse behind).statements ∧
      ((Parser.withStarts starts).parse (before ++ [s] ++ behind)).diagnostics.toList =
        ((Parser.withStarts starts).parse (before ++ [s])).diagnostics.toList ++
          ((Parser.withStarts starts).parse behind).diagnostics.toList := by
  have ends : (Parser.withStarts starts).base.recovery.endsBehind s = true := by
    change (decide (0 < Symbol.semicolon.kind) && decide (s.kind = Symbol.semicolon.kind)) = true
    rw [decide_eq_true semicolon]
    decide
  have whole := run_parse (Parser.withStarts starts) (before ++ [s] ++ behind)
  have first := run_parse (Parser.withStarts starts) (before ++ [s])
  have second := run_parse (Parser.withStarts starts) behind
  rw [List.append_assoc, List.singleton_append, filter_append_semicolon semicolon] at whole
  have split := filter_append_semicolon semicolon before []
  have joined := Run.append semicolon ends second first _ split
  rw [List.append_assoc, List.singleton_append]
  exact whole.unique joined

/-- The error in `1 - ; 2` does not spoil the statement behind the semicolon. -/
theorem parse_append_semicolon_after_error :
    ((Parser.withStarts []).parse ([Symbol.integer.inColumn 1, Symbol.minus.inColumn 3] ++
        [Symbol.semicolon.inColumn 5] ++ [Symbol.integer.inColumn 7])).statements =
      ((Parser.withStarts []).parse ([Symbol.integer.inColumn 1, Symbol.minus.inColumn 3] ++
        [Symbol.semicolon.inColumn 5])).statements ++
      ((Parser.withStarts []).parse [Symbol.integer.inColumn 7]).statements :=
  (parse_append_semicolon [] [Symbol.integer.inColumn 1, Symbol.minus.inColumn 3]
    [Symbol.integer.inColumn 7] rfl).1

end Lox

end FrontEnd
