import FrontEnd.Parser.Basic
import Mathlib.Data.List.Basic

/-!
# Where a parser resumes

Recovery moves the cursor and nothing else, and where it takes the cursor depends only on the
tokens in front of it: `Recovery.resume` says which of them are left.  A token that ends
statements is a barrier to it (`Recovery.stopsAt_resume`).
-/

namespace FrontEnd

/-- Passing over tokens in this way leads to some place in front of the barrier, or to the place
right behind it, and tokens behind the barrier make no difference. -/
def StopsAt (pass : List Token → List Token) (barrier : Token) : Prop :=
  ∀ before,
    (∃ left, ∀ behind, pass (before ++ barrier :: behind) = left ++ barrier :: behind) ∨
    ∀ behind, pass (before ++ barrier :: behind) = behind

namespace Recovery

variable (r : Recovery)

/-- The tokens that are left after skipping to a place where a statement may start, with
`previous` as the token behind the cursor. -/
def skip (previous : Token) : List Token → List Token
  | [] => []
  | t :: rest =>
    if r.endsBehind previous || r.startsWith t then t :: rest else skip t rest

/-- The tokens that are left after recovering from an error. -/
def resume : List Token → List Token
  | [] => []
  | t :: rest => r.skip t rest

theorem skip_suffix (previous : Token) (ts : List Token) : r.skip previous ts <:+ ts := by
  induction ts generalizing previous with
  | nil => exact List.suffix_refl _
  | cons t rest ih =>
      rw [skip]
      split
      · exact List.suffix_refl _
      · exact (ih t).trans (List.suffix_cons t rest)

theorem resume_suffix (ts : List Token) : r.resume ts <:+ ts := by
  cases ts with
  | nil => exact List.suffix_refl _
  | cons t rest => exact (r.skip_suffix t rest).trans (List.suffix_cons t rest)

theorem length_resume_lt {ts : List Token} (present : ts ≠ []) :
    (r.resume ts).length < ts.length := by
  obtain ⟨t, rest, rfl⟩ := List.exists_cons_of_ne_nil present
  exact Nat.lt_succ_of_le (r.skip_suffix t rest).length_le

theorem skip_of_endsBehind {previous : Token} (ends : r.endsBehind previous = true)
    (ts : List Token) : r.skip previous ts = ts := by
  cases ts with
  | nil => rfl
  | cons t rest => rw [skip, ends, Bool.true_or, if_pos rfl]

theorem stopsAt_skip {barrier : Token} (ends : r.endsBehind barrier = true) (previous : Token) :
    StopsAt (r.skip previous) barrier := by
  intro before
  induction before generalizing previous with
  | nil =>
      by_cases stops : (r.endsBehind previous || r.startsWith barrier) = true
      · left
        refine ⟨[], fun behind => ?_⟩
        rw [List.nil_append, skip, if_pos stops]
      · right
        intro behind
        rw [List.nil_append, skip, if_neg stops, r.skip_of_endsBehind ends]
  | cons t before ih =>
      by_cases stops : (r.endsBehind previous || r.startsWith t) = true
      · left
        refine ⟨t :: before, fun behind => ?_⟩
        rw [List.cons_append, skip, if_pos stops]
      · simp only [List.cons_append, skip, if_neg stops]
        exact ih t

/-- Recovery never gets past a token that ends statements. -/
theorem stopsAt_resume {barrier : Token} (ends : r.endsBehind barrier = true) :
    StopsAt r.resume barrier := by
  intro before
  cases before with
  | nil =>
      right
      intro behind
      rw [List.nil_append, resume, r.skip_of_endsBehind ends]
  | cons t before => exact r.stopsAt_skip ends t before

end Recovery

namespace Parser

theorem skipFrom_snd (r : Recovery) (previous : Token) (consumed ts : List Token) :
    (skipFrom r (previous :: consumed) ts).2 = r.skip previous ts := by
  induction ts generalizing previous consumed with
  | nil => rfl
  | cons t rest ih =>
      rw [skipFrom, Recovery.skip, List.head?_cons, Option.any_some]
      split
      · rfl
      · exact ih t (previous :: consumed)

theorem synchronize_rest (p : Parser) : p.synchronize.rest = p.recovery.resume p.rest := by
  cases present : p.rest with
  | nil => simp [synchronize, advance, present, skipFrom, Recovery.resume]
  | cons t rest =>
      simp only [synchronize, advance, present, Recovery.resume]
      exact skipFrom_snd p.recovery t p.consumed rest

theorem synchronize_diagnostics (p : Parser) : p.synchronize.diagnostics = p.diagnostics := by
  cases present : p.rest <;> simp [synchronize, advance, present]

theorem synchronize_recovery (p : Parser) : p.synchronize.recovery = p.recovery := by
  cases present : p.rest <;> simp [synchronize, advance, present]

/-- Passing over some tokens puts them behind the cursor. -/
theorem advanceBy_length (p : Parser) (passed rest : List Token)
    (split : p.rest = passed ++ rest) :
    p.advanceBy passed.length =
      { p with consumed := passed.reverse ++ p.consumed, rest := rest } := by
  induction passed generalizing p with
  | nil =>
      rw [List.nil_append] at split
      rw [← split]
      rfl
  | cons t passed ih =>
      have step : p.advance = { p with
          consumed := t :: p.consumed
          rest := passed ++ rest } := by
        simp only [advance, split, List.cons_append]
      rw [List.length_cons, advanceBy, step, ih _ rfl]
      simp

end Parser

end FrontEnd
