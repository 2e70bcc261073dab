import FrontEnd.Proofs.Lox.Course
import FrontEnd.Proofs.Lox.Endings

/-!
# Scanning the lexemes again

A token of Lox is found as well if its lexeme stands alone or in front of a space.  So the
lexemes of any text, with spaces between them, scan without errors to tokens of the same kinds,
lexemes and values, however many errors there were in the text (`scan_join_lexemes`).
-/

namespace FrontEnd

/-- What a token says, without its place in a text. -/
def Token.content (t : Token) : TokenKind × Text × Option Literal := (t.kind, t.lexeme, t.literal)

namespace Lox

/-- A token whose lexeme is found again where it stands alone. -/
def Rescans (t : Token) : Prop :=
  ∃ s : Symbol, t.kind = s.kind ∧ Finds comments (.token s t.literal) t.lexeme []

theorem rescans_of_mem_scan {text : Text} {t : Token}
    (member : t ∈ (scan newScanner text).tokens) : Rescans t := by
  obtain ⟨s, _, v, kind, _, _, finds⟩ := exists_finds_of_mem_scan member
  exact ⟨s, kind, finds.endsLike (endsLike_cut [] v)⟩

/-- The findings of a text made of lexemes and the spaces between them: wherever it stands, they
are tokens with the given contents, and no faults. -/
theorem exists_course_join (ts : List Token) (rescans : ∀ t ∈ ts, Rescans t) :
    ∃ fs, Course comments (Text.join [0x20] (ts.map Token.lexeme)) fs ∧
      ∀ text n, diagnosticsOf text n fs = [] ∧
        (tokensOf false text n fs).map Token.content = ts.map Token.content := by
  induction ts with
  | nil => exact ⟨[], .nil, fun _ _ => ⟨rfl, rfl⟩⟩
  | cons t ts ih =>
      obtain ⟨⟨s, kind, finds⟩, rescans⟩ := List.forall_mem_cons.mp rescans
      obtain ⟨fs, course, same⟩ := ih rescans
      have content (text : Text) (n : Nat) (gs : List (Finding × Text)) :
          (tokensOf false text n ((.token s t.literal, t.lexeme) :: gs)).map Token.content =
            t.content :: (tokensOf false text (n + t.lexeme.length) gs).map Token.content := by
        rw [Token.content, kind]
        rfl
      rcases ts with _ | ⟨next, ts⟩
      · exact ⟨[(.token s t.literal, t.lexeme)], .cons finds .nil,
          fun text n => ⟨rfl, content text n []⟩⟩
      · have before := finds.endsLike (endsLike_gap (Or.inl rfl) []
          (Text.join [0x20] ((next :: ts).map Token.lexeme)))
        have space : Finds comments .blank [0x20]
            (Text.join [0x20] ((next :: ts).map Token.lexeme)) := .blank rfl rfl rfl
        refine ⟨(.token s t.literal, t.lexeme) :: (.blank, [0x20]) :: fs,
          .cons before (.cons space course), fun text n => ?_⟩
        obtain ⟨clean, contents⟩ := same text (n + t.lexeme.length + 1)
        refine ⟨clean, ?_⟩
        rw [content]
        exact congrArg (t.content :: ·) contents

/-- The lexemes of a text, with single spaces between them, scan without errors to tokens of the
same kinds, lexemes and values. -/
theorem scan_join_lexemes (text : Text) :
    (scan newScanner (Text.join [0x20]
        ((scan newScanner text).tokens.map Token.lexeme))).diagnostics.toList = [] ∧
      (scan newScanner (Text.join [0x20]
          ((scan newScanner text).tokens.map Token.lexeme))).tokens.map Token.content =
        (scan newScanner text).tokens.map Token.content := by
  obtain ⟨fs, course, same⟩ :=
    exists_course_join (scan newScanner text).tokens fun _ => rescans_of_mem_scan
  obtain ⟨tokens, diagnostics⟩ := scan_of_course newScanner course
  rw [tokens, diagnostics]
  exact same _ 0

end Lox

end FrontEnd
