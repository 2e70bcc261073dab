import FrontEnd.Proofs.Lox.Run
import Mathlib.Data.List.Forall2

/-!
# What the statements of a parse are

The statements that a parse returns are written down, one behind the other, in the tokens that
it was given, and each follows the precedence of its operators
(`parse_statements_spelled`).  Errors do not spoil this: what a parse skips lies between the
statements.  Conversely, a parse of expressions that are written down with a semicolon behind
each returns these expressions (`parse_joinSpellings`).
-/

namespace FrontEnd

namespace Lox

/-- The tokens of a statement, and the tokens behind it up to the next statement. -/
structure Piece where
  segment : List Token
  gap : List Token

/-- All tokens of a piece. -/
def Piece.tokens (piece : Piece) : List Token := piece.segment ++ piece.gap

/-- The statements of a run lie one behind the other in its tokens.  In a run without errors
nothing but semicolons lies between them. -/
theorem Run.layout {r : Recovery} {ts : List Token} {es : List Expr} {ds : List Diagnostic}
    (run : Run r ts es ds) :
    ∃ (before : List Token) (pieces : List Piece),
      ts = before ++ pieces.flatMap Piece.tokens ∧
      List.Forall₂ (fun e piece => Spells e piece.segment ∧ Shaped e) es pieces ∧
      (ds = [] → before = [] ∧ ∀ piece ∈ pieces, piece.gap = [] ∨
        ∃ s : Token, s.kind = Symbol.semicolon.kind ∧ piece.gap = [s]) := by
  induction run with
  | finished => exact ⟨[], [], rfl, .nil, fun _ => ⟨rfl, by simp⟩⟩
  | @statement ts rest e es ds read _ ih =>
      obtain ⟨segment, rfl, written⟩ := exists_written_of_parseExpr read
      obtain ⟨gap, split, semicolon⟩ := exists_append_dropSemicolon rest
      obtain ⟨before, pieces, tokens, spelled, clean⟩ := ih
      refine ⟨[], ⟨segment, gap ++ before⟩ :: pieces, ?_, ?_, ?_⟩
      · rw [split, tokens]
        simp [Piece.tokens]
      · exact .cons ⟨written.spells, written.shaped⟩ spelled
      · intro noErrors
        obtain ⟨rfl, gaps⟩ := clean noErrors
        refine ⟨rfl, ?_⟩
        intro piece member
        rcases List.mem_cons.mp member with rfl | member
        · rw [List.append_nil]
          exact semicolon
        · exact gaps piece member
  | @failed ts failure es ds _ read _ ih =>
      obtain ⟨passed, rfl⟩ := exists_passed_of_parseExpr read
      obtain ⟨skipped, split⟩ := r.resume_suffix failure.rest
      obtain ⟨before, pieces, tokens, spelled, _⟩ := ih
      refine ⟨passed ++ skipped ++ before, pieces, ?_, spelled, ?_⟩
      · rw [← split, tokens]
        simp
      · intro noErrors
        cases noErrors

/-- The statements of a parse are written down, in order and apart from each other, in the
tokens that are no comments, and each follows the precedence of its operators.  A parse without
errors leaves nothing out but one semicolon behind each statement. -/
theorem parse_statements_spelled (lp : Parser) (tokens : List Token) :
    ∃ (before : List Token) (pieces : List Piece),
      tokens.filter (·.kind != TokenKind.comment) = before ++ pieces.flatMap Piece.tokens ∧
      List.Forall₂ (fun e piece => Spells e piece.segment ∧ Shaped e)
        (lp.parse tokens).statements pieces ∧
      ((lp.parse tokens).diagnostics.toList = [] →
        before = [] ∧ ∀ piece ∈ pieces, piece.gap = [] ∨
          ∃ s : Token, s.kind = Symbol.semicolon.kind ∧ piece.gap = [s]) :=
  (run_parse lp tokens).layout

section Spellings

variable {es : List Expr} {spellings : List (List Token × Token)}

/-- The tokens of some spellings, each with its semicolon behind it. -/
def joinSpellings (spellings : List (List Token × Token)) : List Token :=
  spellings.flatMap fun spelling => spelling.1 ++ [spelling.2]

theorem joinSpellings_cons (spelling : List Token × Token) :
    joinSpellings (spelling :: spellings) =
      spelling.1 ++ spelling.2 :: joinSpellings spellings := by
  simp [joinSpellings]

/-- Written expressions with semicolons behind them are read in order. -/
theorem run_joinSpellings (r : Recovery) (shaped : ∀ e ∈ es, Shaped e)
    (spelled : List.Forall₂
      (fun e spelling => Spells e spelling.1 ∧ spelling.2.kind = Symbol.semicolon.kind)
      es spellings) :
    Run r (joinSpellings spellings) es [] := by
  induction spelled with
  | nil => exact .finished
  | @cons e spelling es spellings first _ ih =>
      obtain ⟨spells, ends⟩ := first
      have firstShaped := shaped e List.mem_cons_self
      have next := ih fun e member => shaped e (List.mem_cons_of_mem _ member)
      have written : Written conditionalRank e spelling.1 :=
        ⟨firstShaped, firstShaped.rank_le, spells⟩
      have stops : Ends conditionalRank (spelling.2 :: joinSpellings spellings) :=
        .cons (isOneOf_singleton.mpr ends) (by decide)
      have read := (written.reads stops).parseExpr_eq
      rw [joinSpellings_cons]
      apply Run.statement read
      rw [dropSemicolon_cons ends]
      exact next

theorem filter_joinSpellings (shaped : ∀ e ∈ es, Shaped e)
    (spelled : List.Forall₂
      (fun e spelling => Spells e spelling.1 ∧ spelling.2.kind = Symbol.semicolon.kind)
      es spellings) :
    (joinSpellings spellings).filter (·.kind != TokenKind.comment) = joinSpellings spellings := by
  induction spelled with
  | nil => rfl
  | @cons e spelling es spellings first _ ih =>
      obtain ⟨spells, ends⟩ := first
      have next := ih fun e member => shaped e (List.mem_cons_of_mem _ member)
      have kept : spelling.1.filter (·.kind != TokenKind.comment) = spelling.1 := by
        apply List.filter_eq_self.mpr
        intro t member
        have known := spells.all_isOneOf (shaped e List.mem_cons_self) t member
        exact bne_iff_ne.mpr (not_comment_of_isOneOf known)
      rw [joinSpellings_cons, filter_append_semicolon ends, kept, next]

/-- Parsing expressions that are written down with a semicolon behind each gives these
expressions back. -/
theorem parse_joinSpellings (lp : Parser) (shaped : ∀ e ∈ es, Shaped e)
    (spelled : List.Forall₂
      (fun e spelling => Spells e spelling.1 ∧ spelling.2.kind = Symbol.semicolon.kind)
      es spellings) :
    (lp.parse (joinSpellings spellings)).statements = es ∧
      (lp.parse (joinSpellings spellings)).diagnostics.toList = [] := by
  have run := run_parse lp (joinSpellings spellings)
  rw [filter_joinSpellings shaped spelled] at run
  exact run.unique (run_joinSpellings lp.base.recovery shaped spelled)

/-- The trees of the two statements `1 - 2 - true;` and `!(3) ? 4 : 5;`. -/
theorem parse_difference_and_choice :
    (Parser.new.parse (joinSpellings
      [([Symbol.integer.inColumn 1, Symbol.minus.inColumn 2, Symbol.integer.inColumn 3,
          Symbol.minus.inColumn 4, Symbol.kwTrue.inColumn 5], Symbol.semicolon.inColumn 9),
        ([Symbol.bang.inColumn 10, Symbol.leftParen.inColumn 11, Symbol.integer.inColumn 12,
          Symbol.rightParen.inColumn 13, Symbol.question.inColumn 14, Symbol.integer.inColumn 15,
          Symbol.colon.inColumn 16, Symbol.integer.inColumn 17],
          Symbol.semicolon.inColumn 18)])).statements =
      [.binary
        (.binary (.literal (Symbol.integer.inColumn 1)) (Symbol.minus.inColumn 2)
          (.literal (Symbol.integer.inColumn 3)))
        (Symbol.minus.inColumn 4)
        (.literal { Symbol.kwTrue.inColumn 5 with literal := some (.boolean true) }),
      .ternary
        (.unary (Symbol.bang.inColumn 10)
          (.grouped (Symbol.leftParen.inColumn 11) (.literal (Symbol.integer.inColumn 12))))
        (.literal (Symbol.integer.inColumn 15)) (.literal (Symbol.integer.inColumn 17))] := by
  have number (column : Int) : Shaped (.literal (Symbol.integer.inColumn column)) :=
    .literal (show Symbol.integer.kind ∈ leafKinds by decide)
      ⟨fun same => absurd (Symbol.kind_inj.mp same) (by decide),
        fun same => absurd (Symbol.kind_inj.mp same) (by decide)⟩
  have truth : Shaped (.literal
      { Symbol.kwTrue.inColumn 5 with literal := some (.boolean true) }) :=
    .literal (by decide) ⟨fun _ => rfl, by decide⟩
  refine (parse_joinSpellings Parser.new ?_ (.cons ⟨?_, rfl⟩ (.cons ⟨?_, rfl⟩ .nil))).1
  · intro e member
    rcases List.mem_pair.mp member with rfl | rfl
    · exact .binary .term (by decide) (by decide) (by decide)
        (.binary .term (by decide) (by decide) (by decide) (number 1) (number 3)) truth
    · exact .ternary (by decide) (.unary (by decide) rfl (.grouped rfl (number 12))) (number 15)
        (number 17)
  · have spelledTruth : KeptAs (Symbol.kwTrue.inColumn 5)
        { Symbol.kwTrue.inColumn 5 with literal := some (.boolean true) } :=
      Or.inr ⟨Or.inl rfl, rfl⟩
    exact .binary (.binary (.literal (Or.inl rfl)) (.literal (Or.inl rfl)))
      (.literal spelledTruth)
  · have closes : (Symbol.rightParen.inColumn 13).kind = Symbol.rightParen.kind := rfl
    have asks : (Symbol.question.inColumn 14).kind = Symbol.question.kind := rfl
    have divides : (Symbol.colon.inColumn 16).kind = Symbol.colon.kind := rfl
    exact .ternary (.unary (.grouped (.literal (Or.inl rfl)) closes)) asks
      (.literal (Or.inl rfl)) divides (.literal (Or.inl rfl))

end Spellings

end Lox

end FrontEnd
