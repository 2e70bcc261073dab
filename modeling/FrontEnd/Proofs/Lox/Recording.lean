import FrontEnd.Lox.Parser
import FrontEnd.Proofs.Lox.Course
import FrontEnd.Proofs.Lox.Kinds

/-!
# Recording comments changes nothing else

Whether comments are recorded has no part in the lexical grammar, so a text has the same course in
both cases (`Course.withRecorded`).  The two scans differ in the tokens for the comments of the
course, and in nothing else (`scan_withRecorded`); a parser does not see the difference.
-/

namespace FrontEnd

variable {style : CommentStyle} {t u v : Text}

theorem Comment.withRecorded {closed : Bool} (comment : Comment style closed u v)
    (recorded : Bool) : Comment (style.withRecorded recorded) closed u v := by
  cases comment with
  | line opens decides sweep => exact .line opens decides sweep
  | block opens decides found sweep => exact .block opens decides found sweep
  | unclosed opens decides missing sweep => exact .unclosed opens decides missing sweep

namespace Lox

theorem Fraction.withRecorded {has : Bool} (fraction : Fraction style has u v) (recorded : Bool) :
    Fraction (style.withRecorded recorded) has u v := by
  cases fraction with
  | absent other => exact .absent other
  | present digit digits => exact .present digit digits

theorem Exponent.withRecorded {answer : Option Bool} (exponent : Exponent style answer u v)
    (recorded : Bool) : Exponent (style.withRecorded recorded) answer u v := by
  cases exponent with
  | absent other => exact .absent other
  | empty mark signed digits => exact .empty mark signed digits
  | present mark signed present digits => exact .present mark signed present digits

theorem Lexeme.withRecorded {f : Finding} (lexeme : Lexeme style f u v) (recorded : Bool) :
    Lexeme (style.withRecorded recorded) f u v := by
  cases lexeme with
  | number digit digits fraction exponent =>
      exact .number digit digits (fraction.withRecorded recorded) (exponent.withRecorded recorded)
  | malformed digit digits fraction exponent =>
      exact .malformed digit digits (fraction.withRecorded recorded)
        (exponent.withRecorded recorded)
  | string v inside => exact .string v inside
  | unterminated inside => exact .unterminated inside
  | word start parts => exact .word start parts
  | single first width known => exact .single first width known
  | short first width known alone => exact .short first width known alone
  | long first width known => exact .long first width known
  | unexpected first width notDigit notQuote notStart notSingle notPair =>
      exact .unexpected first width notDigit notQuote notStart notSingle notPair

theorem Finds.withRecorded {f : Finding} (finds : Finds style f u v) (recorded : Bool) :
    Finds (style.withRecorded recorded) f u v := by
  cases finds with
  | blank first width isBlank => exact .blank first width isBlank
  | comment seen comment => exact .comment seen (comment.withRecorded recorded)
  | unclosed seen comment => exact .unclosed seen (comment.withRecorded recorded)
  | lexeme seen outside lexeme => exact .lexeme seen outside (lexeme.withRecorded recorded)

theorem Course.withRecorded {fs : List (Finding × Text)} (course : Course style t fs)
    (recorded : Bool) : Course (style.withRecorded recorded) t fs := by
  induction course with
  | nil => exact .nil
  | cons finds _ ih => exact .cons (finds.withRecorded recorded) ih

/-! ## The tokens of a course with and without comments -/

theorem Finding.filter_token? (text : Text) (n : Nat) (u : Text) (f : Finding) :
    (f.token? true text n u).toList.filter (·.kind != TokenKind.comment) =
      (f.token? false text n u).toList := by
  cases f with
  | blank => rfl
  | comment => rfl
  | fault => rfl
  | token symbol literal =>
      have other : (symbol.kind != TokenKind.comment) = true :=
        bne_iff_ne.mpr symbol.kind_ne_comment
      exact List.filter_cons_of_pos other

theorem filter_tokensOf (text : Text) (n : Nat) (fs : List (Finding × Text)) :
    (tokensOf true text n fs).filter (·.kind != TokenKind.comment) = tokensOf false text n fs := by
  induction fs generalizing n with
  | nil => rfl
  | cons found fs ih =>
      obtain ⟨f, u⟩ := found
      rw [tokensOf, tokensOf, List.filter_append, f.filter_token?, ih]

/-- A scan that records comments and one that does not, with the same markers, find the same errors
and the same tokens, comments apart.  So every parser comes to the same from the tokens of both. -/
theorem scan_withRecorded (s : Scanner) (text : Text) :
    (scan (s.setComments (·.withRecorded true)) text).diagnostics.toList =
        (scan (s.setComments (·.withRecorded false)) text).diagnostics.toList ∧
      (scan (s.setComments (·.withRecorded true)) text).tokens.filter
          (·.kind != TokenKind.comment) =
        (scan (s.setComments (·.withRecorded false)) text).tokens ∧
      ∀ lp : Parser, lp.parse (scan (s.setComments (·.withRecorded true)) text).tokens =
        lp.parse (scan (s.setComments (·.withRecorded false)) text).tokens := by
  obtain ⟨fs, course⟩ := exists_course s.comments text
  obtain ⟨tokens, diagnostics⟩ :=
    scan_of_course (s.setComments (·.withRecorded true)) (course.withRecorded true)
  obtain ⟨tokensToo, diagnosticsToo⟩ :=
    scan_of_course (s.setComments (·.withRecorded false)) (course.withRecorded false)
  have same : (scan (s.setComments (·.withRecorded true)) text).tokens.filter
        (·.kind != TokenKind.comment) =
      (scan (s.setComments (·.withRecorded false)) text).tokens := by
    rw [tokens, tokensToo]
    exact filter_tokensOf text 0 fs
  refine ⟨diagnostics.trans diagnosticsToo.symm, same, fun lp => ?_⟩
  rw [Parser.parse_eq, Parser.parse_eq, ← same, List.filter_filter]
  simp only [Bool.and_self]

end Lox

end FrontEnd
