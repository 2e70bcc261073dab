import FrontEnd.Proofs.Lox.Derivation
import FrontEnd.Proofs.Lox.Run

/-!
# Which programs are accepted

A parse notes no error exactly if the kinds of its tokens, comments aside, are derived from the
grammar of programs.  One direction reads the derivation off the run.  For the other one the
reader must not go astray where the grammar leaves a choice: it never stops at a minus behind an
expression, and a program always has a derivation that does not either.
-/

namespace FrontEnd

namespace Lox

/-- A run without errors reads a program. -/
theorem Run.program {r : Recovery} {ts : List Token} {es : List Expr} {ds : List Diagnostic}
    (run : Run r ts es ds) (clean : ds = []) : DerivesProgram (ts.map Token.kind) := by
  induction run with
  | finished => exact .empty
  | @statement ts rest e _ _ read _ ih =>
      obtain ⟨passed, rfl, written⟩ := exists_written_of_parseExpr read
      have expression := derives_iff_written.mpr ⟨e, written⟩
      have others := ih clean
      obtain ⟨gap, split, none | ⟨s, ends, one⟩⟩ := exists_append_dropSemicolon rest
      · rw [split, none, List.nil_append, List.map_append]
        exact .statement expression others
      · rw [split, one, List.singleton_append, List.map_append, List.map_cons, ends]
        exact .terminated expression others
  | failed _ _ _ _ => cases clean

theorem DerivesProgram.next_isOneOf {ts : List Token} (program : DerivesProgram (ts.map Token.kind))
    (present : ts ≠ []) : nextIsOneOf starters ts = true := by
  rcases program.first_statement with nothing | ⟨first, rest, derives, _, split⟩
  · exact absurd (List.map_eq_nil_iff.mp nothing) present
  · have front : ∃ behind, ts.map Token.kind = first ++ behind := by
      rcases split with split | ⟨split, _⟩
      · exact ⟨_, split⟩
      · exact ⟨_, split⟩
    obtain ⟨behind, front⟩ := front
    obtain ⟨fs, bs, rfl, rfl, _⟩ := List.map_eq_append_iff.mp front
    obtain ⟨e, written⟩ := derives_iff_written.mp derives
    rw [nextIsOneOf_append written.spells.ne_nil]
    exact written.spells.next_isOneOf written.shaped

/-- A program that does not start with a minus ends the expression in front of it. -/
theorem DerivesProgram.ends {bound : Nat} {ts : List Token}
    (program : DerivesProgram (ts.map Token.kind))
    (noMinus : (ts.map Token.kind).head? ≠ some Symbol.minus.kind) : Ends bound ts := by
  cases ts with
  | nil => exact .nil
  | cons t rest =>
      have starts := program.next_isOneOf (List.cons_ne_nil t rest)
      rw [nextIsOneOf_cons] at starts
      obtain ⟨s, member, known⟩ := isOneOf_iff.mp starts
      have notMinus : s ≠ .minus := by
        rintro rfl
        exact noMinus (congrArg some known)
      have remaining : s ∈ Symbol.bang :: leaves ++ [.leftParen] := by
        revert member notMinus
        cases s <;> decide
      exact .cons (isOneOf_iff.mpr ⟨s, remaining, known⟩) (by decide)

theorem DerivesProgram.dropSemicolon_eq {ts : List Token}
    (program : DerivesProgram (ts.map Token.kind)) : dropSemicolon ts = ts := by
  apply dropSemicolon_eq_self
  cases ts with
  | nil => rfl
  | cons t rest =>
      exact isOneOf_eq_false (by decide) (program.next_isOneOf (List.cons_ne_nil t rest))

/-- A program is read without errors. -/
theorem DerivesProgram.run (r : Recovery) {ts : List Token}
    (program : DerivesProgram (ts.map Token.kind)) : ∃ es, Run r ts es [] := by
  induction size : ts.length using Nat.strongRecOn generalizing ts with
  | ind size ih =>
      rcases program.first_statement with nothing | ⟨first, rest, derives, others, split⟩
      · obtain rfl := List.map_eq_nil_iff.mp nothing
        exact ⟨[], .finished⟩
      · rcases split with split | ⟨split, noMinus⟩
        · obtain ⟨fs, bs, rfl, rfl, behind⟩ := List.map_eq_append_iff.mp split
          obtain ⟨s, rs, rfl, ends, rfl⟩ := List.map_eq_cons_iff.mp behind
          obtain ⟨e, written⟩ := derives_iff_written.mp derives
          have stops : Ends conditionalRank (s :: rs) :=
            .cons (isOneOf_singleton.mpr ends) (by decide)
          have read := (written.reads stops).parseExpr_eq
          have left : dropSemicolon (s :: rs) = rs := dropSemicolon_cons ends
          have shorter := length_lt_of_ok read
          rw [left] at shorter
          obtain ⟨es, run⟩ := ih _ (size ▸ shorter) others rfl
          rw [← left] at run
          exact ⟨e :: es, .statement read run⟩
        -- What follows without a semicolon starts with no minus, so it starts with no operator.
        · obtain ⟨fs, rs, rfl, rfl, rfl⟩ := List.map_eq_append_iff.mp split
          obtain ⟨e, written⟩ := derives_iff_written.mp derives
          have read := (written.reads (others.ends noMinus)).parseExpr_eq
          have shorter := length_lt_of_ok read
          rw [others.dropSemicolon_eq] at shorter
          obtain ⟨es, run⟩ := ih _ (size ▸ shorter) others rfl
          rw [← others.dropSemicolon_eq] at run
          exact ⟨e :: es, .statement read run⟩

/-- A parse notes no error exactly if its tokens are a program, comments aside. -/
theorem parse_diagnostics_eq_nil_iff (lp : Parser) (tokens : List Token) :
    (lp.parse tokens).diagnostics.toList = [] ↔
      DerivesProgram ((tokens.filter (·.kind != TokenKind.comment)).map Token.kind) := by
  constructor
  · intro clean
    exact (run_parse lp tokens).program clean
  · intro program
    obtain ⟨es, run⟩ := program.run lp.base.recovery
    exact ((run_parse lp tokens).unique run).2

end Lox

end FrontEnd
