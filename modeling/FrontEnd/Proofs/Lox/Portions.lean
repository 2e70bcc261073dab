import FrontEnd.Proofs.Lox.Course

/-!
# The portions of a scanned text

A scan that records comments accounts for every byte of its text.  The text is the concatenation
of portions, one behind the other: white space, the lexemes of the tokens, and errors
(`scan_eq_portions`).  No token and no error is without its portion, and no portion without its
token or error unless it is white space.
-/

namespace FrontEnd

namespace Lox

/-- A portion of a scanned text. -/
inductive Portion where
  | blank (bytes : Text)
  | token (token : Token)
  | fault (diagnostic : Diagnostic) (bytes : Text)

namespace Portion

def bytes : Portion → Text
  | .blank bytes => bytes
  | .token t => t.lexeme
  | .fault _ bytes => bytes

def token? : Portion → Option Token
  | .token t => some t
  | _ => none

def diagnostic? : Portion → Option Diagnostic
  | .fault d _ => some d
  | _ => none

/-- What a portion at the offset `n` says about itself is true: a blank is one character of white
space, the span of a token is where its bytes are, and an error is located at its first
character. -/
inductive TrueAt (text : Text) (n : Nat) : Portion → Prop where
  | blank {r : Rune} (first : Text.rune? (text.drop n) = some r)
      (isBlank : Text.isBlank r.char = true) : TrueAt text n (.blank ((text.drop n).take r.width))
  | token {t : Token} (span : t.span = ⟨n, (n + t.lexeme.length : Nat)⟩)
      (location : t.location = text.locationAt n) : TrueAt text n (.token t)
  | fault {d : Diagnostic} (bytes : Text) (location : d.location = text.locationAt n) :
      TrueAt text n (.fault d bytes)

end Portion

/-- The portions `ps` make up the text from the offset `n` on. -/
inductive Portions (text : Text) : Nat → List Portion → Prop where
  | nil : Portions text text.length []
  | cons {n : Nat} {p : Portion} {ps : List Portion} (present : p.bytes ≠ [])
      (inText : p.bytes <+: text.drop n) (isTrue : p.TrueAt text n)
      (rest : Portions text (n + p.bytes.length) ps) : Portions text n (p :: ps)

theorem Portions.flatMap_bytes {text : Text} {n : Nat} {ps : List Portion}
    (portions : Portions text n ps) : ps.flatMap Portion.bytes = text.drop n := by
  induction portions with
  | nil => exact List.drop_length.symm
  | @cons n p ps _ inText _ _ ih =>
      obtain ⟨rest, split⟩ := inText
      rw [List.flatMap_cons, ih, Text.drop_add_of_split split.symm, split]

/-! ## From a course to its portions -/

/-- The portion of a finding with the bytes `u` at the offset `n`. -/
def Finding.portion (text : Text) (n : Nat) (u : Text) : Finding → Portion
  | .blank => .blank u
  | .comment => .token ⟨.comment, u, text.locationAt n, ⟨n, (n + u.length : Nat)⟩, none⟩
  | .token symbol literal =>
    .token ⟨symbol.kind, u, text.locationAt n, ⟨n, (n + u.length : Nat)⟩, literal⟩
  | .fault message => .fault ⟨text.locationAt n, message⟩ u

section Portion

variable {style : CommentStyle} {text u v : Text} {n : Nat} {f : Finding}

theorem Finding.bytes_portion (text : Text) (n : Nat) (u : Text) (f : Finding) :
    (f.portion text n u).bytes = u := by
  cases f <;> rfl

theorem Finding.token?_portion (text : Text) (n : Nat) (u : Text) (f : Finding) :
    (f.portion text n u).token? = f.token? true text n u := by
  cases f <;> rfl

theorem Finding.diagnostic?_portion (text : Text) (n : Nat) (u : Text) (f : Finding) :
    (f.portion text n u).diagnostic? = f.diagnostic? text n := by
  cases f <;> rfl

theorem Finds.trueAt_portion (finds : Finds style f u v) (split : text.drop n = u ++ v) :
    (f.portion text n u).TrueAt text n := by
  cases f with
  | blank =>
      obtain ⟨r, first, width, isBlank⟩ := finds.exists_of_blank
      have bytes : u = (text.drop n).take r.width := by rw [split, ← width, List.take_left]
      rw [← split] at first
      change Portion.TrueAt text n (.blank u)
      rw [bytes]
      exact .blank first isBlank
  | comment => exact .token rfl rfl
  | token => exact .token rfl rfl
  | fault => exact .fault u rfl

end Portion

theorem exists_portions {style : CommentStyle} {text t : Text} {n : Nat}
    {fs : List (Finding × Text)} (course : Course style t fs) (ahead : text.drop n = t)
    (bounded : n ≤ text.length) :
    ∃ ps, Portions text n ps ∧ ps.filterMap Portion.token? = tokensOf true text n fs ∧
      ps.filterMap Portion.diagnostic? = diagnosticsOf text n fs := by
  induction course generalizing n with
  | nil =>
      obtain rfl : n = text.length := Nat.le_antisymm bounded (List.drop_eq_nil_iff.mp ahead)
      exact ⟨[], .nil, rfl, rfl⟩
  | @cons f u v fs finds _ ih =>
      have next : text.drop (n + u.length) = v := Text.drop_add_of_split ahead
      have fits : n + u.length ≤ text.length := by
        have := congrArg List.length ahead
        rw [List.length_drop, List.length_append] at this
        omega
      obtain ⟨ps, portions, tokens, diagnostics⟩ := ih next fits
      have bytes := f.bytes_portion text n u
      refine ⟨f.portion text n u :: ps, ?_, ?_, ?_⟩
      · refine .cons ?_ ?_ (finds.trueAt_portion ahead) ?_
        · rw [bytes]
          exact finds.ne_nil
        · rw [bytes, ahead]
          exact List.prefix_append u v
        · rw [bytes]
          exact portions
      · rw [List.filterMap_cons, f.token?_portion, tokens, tokensOf]
        cases f.token? true text n u <;> rfl
      · rw [List.filterMap_cons, f.diagnostic?_portion, diagnostics, diagnosticsOf]
        cases f.diagnostic? text n <;> rfl

/-- A scan that records comments accounts for every byte of its text, and for every token and
every error by the bytes it is about.  Without errors, all that is outside of the tokens is white
space. -/
theorem scan_eq_portions (s : Scanner) (text : Text) :
    ∃ ps, Portions text 0 ps ∧ ps.flatMap Portion.bytes = text ∧
      (scan (s.setComments (·.withRecorded true)) text).tokens = ps.filterMap Portion.token? ∧
      (scan (s.setComments (·.withRecorded true)) text).diagnostics.toList =
        ps.filterMap Portion.diagnostic? ∧
      ((scan (s.setComments (·.withRecorded true)) text).diagnostics.toList = [] →
        ∀ p ∈ ps, (∃ bytes, p = .blank bytes) ∨ ∃ t, p = .token t) := by
  obtain ⟨fs, course⟩ := exists_course (s.comments.withRecorded true) text
  obtain ⟨scanned, reported⟩ := scan_of_course (s.setComments (·.withRecorded true)) course
  obtain ⟨ps, portions, tokens, diagnostics⟩ := exists_portions course rfl (Nat.zero_le _)
  refine ⟨ps, portions, portions.flatMap_bytes, scanned.trans tokens.symm,
    reported.trans diagnostics.symm, fun clean p member => ?_⟩
  rw [reported, ← diagnostics, List.filterMap_eq_nil_iff] at clean
  cases p with
  | blank bytes => exact Or.inl ⟨bytes, rfl⟩
  | token t => exact Or.inr ⟨t, rfl⟩
  | fault => cases clean _ member

end Lox

end FrontEnd
