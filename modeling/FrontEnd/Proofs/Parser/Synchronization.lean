import FrontEnd.Proofs.Parser.Calls
import FrontEnd.Proofs.Parser.Recovery
import Mathlib.Order.Bounds.Basic

/-!
# Where recovery stops

A statement may start at the end of the tokens, behind a token that ends statements, and in front of
a token that starts one (`Recovery.ResumesAt`).  Recovery passes over at least one token and stops
at the first such place (`synchronize_isLeast`).
-/

namespace FrontEnd

namespace KeywordSet

variable {k j : TokenKind} {kinds members : List TokenKind}

theorem mem_insertSorted : k ∈ insertSorted j members ↔ k = j ∨ k ∈ members := by
  induction members with
  | nil => exact List.mem_singleton.trans (or_iff_left List.not_mem_nil).symm
  | cons i members ih =>
      rw [insertSorted]
      split
      · exact List.mem_cons
      · split
        · rename_i same
          subst same
          rw [List.mem_cons, or_self_left]
        · rw [List.mem_cons, ih, List.mem_cons, or_left_comm]

theorem mem_foldl_insertSorted :
    k ∈ kinds.foldl (fun members j => insertSorted j members) members ↔
      k ∈ kinds ∨ k ∈ members := by
  induction kinds generalizing members with
  | nil => exact (or_iff_right List.not_mem_nil).symm
  | cons j kinds ih =>
      rw [List.foldl_cons, ih, mem_insertSorted, List.mem_cons, or_left_comm, or_assoc]

/-- The members of a set are those it was made of. -/
theorem mem_members_ofList : k ∈ (ofList kinds).members ↔ k ∈ kinds := by
  change k ∈ kinds.foldl (fun members j => insertSorted j members) [] ↔ _
  rw [mem_foldl_insertSorted, or_iff_left List.not_mem_nil]

end KeywordSet

namespace Recovery

/-- A statement may start in front of the token with the number `q`, or behind the last one. -/
def ResumesAt (r : Recovery) (tokens : List Token) (q : Nat) : Prop :=
  q = tokens.length ∨
    (0 < r.terminator ∧ ∃ t, tokens[q - 1]? = some t ∧ t.kind = r.terminator) ∨
    ∃ starts t, r.starts = some starts ∧ tokens[q]? = some t ∧ t.kind ∈ starts.members

theorem endsBehind_iff (r : Recovery) (t : Token) :
    r.endsBehind t = true ↔ 0 < r.terminator ∧ t.kind = r.terminator := by
  rw [endsBehind, Bool.and_eq_true, decide_eq_true_iff, decide_eq_true_iff]

theorem startsWith_iff (r : Recovery) (t : Token) :
    r.startsWith t = true ↔ ∃ starts, r.starts = some starts ∧ t.kind ∈ starts.members := by
  rw [startsWith, Option.any_eq_true]
  simp only [KeywordSet.contains, List.contains_iff_mem]

end Recovery

namespace Parser

/-- The parser after skipping to a place where a statement may start. -/
def skipped (p : Parser) : Parser :=
  { p with
    consumed := (skipFrom p.recovery p.consumed p.rest).1
    rest := (skipFrom p.recovery p.consumed p.rest).2 }

theorem synchronize_eq (p : Parser) : p.synchronize = p.advance.skipped := rfl

variable {p : Parser}

theorem position_advance (inFront : p.rest ≠ []) : p.advance.position = p.position + 1 := by
  obtain ⟨t, rest, ahead⟩ := List.exists_cons_of_ne_nil inFront
  rw [advance, ahead]
  rfl

theorem consumed_advance_ne_nil (inFront : p.rest ≠ []) : p.advance.consumed ≠ [] := by
  obtain ⟨t, rest, ahead⟩ := List.exists_cons_of_ne_nil inFront
  rw [advance, ahead]
  exact List.cons_ne_nil _ _

/-- With tokens on both sides of the cursor, those next to it tell whether a statement may start
here. -/
theorem resumesAt_position {u t : Token} {consumed rest : List Token}
    (behind : p.consumed = u :: consumed) (ahead : p.rest = t :: rest) :
    p.recovery.ResumesAt p.tokens p.position ↔
      (p.recovery.endsBehind u || p.recovery.startsWith t) = true := by
  have length := p.length_tokens
  rw [ahead, List.length_cons] at length
  have here : p.tokens[p.position]? = some t := by
    have found := p.getElem?_tokens_ahead 0
    rwa [ahead] at found
  rw [Recovery.ResumesAt, p.getElem?_tokens_previous u consumed behind, here, Bool.or_eq_true,
    Recovery.endsBehind_iff, Recovery.startsWith_iff, or_iff_right (by omega)]
  simp only [Option.some.injEq, exists_eq_left', exists_and_left]

theorem skipped_of_stops {u t : Token} {consumed rest : List Token}
    (behind : p.consumed = u :: consumed) (ahead : p.rest = t :: rest)
    (stops : (p.recovery.endsBehind u || p.recovery.startsWith t) = true) : p.skipped = p := by
  rw [skipped, behind, ahead, skipFrom, List.head?_cons, Option.any_some, if_pos stops, ← behind,
    ← ahead]

theorem skipped_of_goesOn {u t : Token} {consumed rest : List Token}
    (behind : p.consumed = u :: consumed) (ahead : p.rest = t :: rest)
    (goesOn : ¬ (p.recovery.endsBehind u || p.recovery.startsWith t) = true) :
    p.skipped = p.advance.skipped := by
  have moved : p.advance = { p with consumed := t :: u :: consumed, rest := rest } := by
    rw [advance, ahead, behind]
  rw [moved, skipped, behind, ahead, skipFrom, List.head?_cons, Option.any_some, if_neg goesOn,
    skipped]

theorem skipped_of_atEnd (ended : p.rest = []) : p.skipped = p := by
  rw [skipped, ended, skipFrom, ← ended]

/-- Skipping passes over tokens one by one, and does nothing else. -/
theorem exists_skipped_eq_advanceBy (behind : p.consumed ≠ []) :
    ∃ count, p.skipped = p.advanceBy count := by
  generalize known : p.rest = ahead
  induction ahead generalizing p with
  | nil => exact ⟨0, skipped_of_atEnd known⟩
  | cons t rest ih =>
      obtain ⟨u, consumed, last⟩ := List.exists_cons_of_ne_nil behind
      have inFront : p.rest ≠ [] := known ▸ List.cons_ne_nil t rest
      by_cases stops : (p.recovery.endsBehind u || p.recovery.startsWith t) = true
      · exact ⟨0, skipped_of_stops last known stops⟩
      · have next : p.advance.rest = rest := by rw [advance, known]
        obtain ⟨count, same⟩ := ih (consumed_advance_ne_nil inFront) next
        exact ⟨count + 1, (skipped_of_goesOn last known stops).trans same⟩

/-- Skipping stops at the first place from the cursor on where a statement may start. -/
theorem skipped_isLeast (behind : p.consumed ≠ []) :
    IsLeast {q | p.position ≤ q ∧ q ≤ p.tokens.length ∧ p.recovery.ResumesAt p.tokens q}
      p.skipped.position := by
  generalize known : p.rest = ahead
  have length := p.length_tokens
  induction ahead generalizing p with
  | nil =>
      rw [known, List.length_nil, Nat.add_zero] at length
      rw [skipped_of_atEnd known]
      exact ⟨⟨Nat.le_refl _, length.ge, Or.inl length.symm⟩, fun _ other => other.1⟩
  | cons t rest ih =>
      obtain ⟨u, consumed, last⟩ := List.exists_cons_of_ne_nil behind
      have inFront : p.rest ≠ [] := known ▸ List.cons_ne_nil t rest
      have here := resumesAt_position last known
      by_cases stops : (p.recovery.endsBehind u || p.recovery.startsWith t) = true
      · rw [skipped_of_stops last known stops]
        exact ⟨⟨Nat.le_refl _, by omega, here.mpr stops⟩, fun _ other => other.1⟩
      · have next : p.advance.rest = rest := by rw [advance, known]
        obtain ⟨⟨low, high, resumes⟩, least⟩ :=
          ih (consumed_advance_ne_nil inFront) next p.advance.length_tokens
        rw [tokens_advance, recovery_advance, position_advance inFront] at *
        rw [skipped_of_goesOn last known stops]
        refine ⟨⟨by omega, high, resumes⟩, fun q other => ?_⟩
        obtain ⟨lowToo, highToo, resumesToo⟩ := other
        -- No statement may start at the cursor, so any such place is further on.
        have further : p.position ≠ q := by
          rintro rfl
          exact stops (here.mp resumesToo)
        exact least ⟨by omega, highToo, resumesToo⟩

theorem rest_eq_nil_iff : p.rest = [] ↔ p.position = p.tokens.length := by
  rw [← List.length_eq_zero_iff, length_tokens]
  omega

theorem exists_synchronize_eq_advanceBy (p : Parser) :
    ∃ count, p.synchronize = p.advanceBy count := by
  by_cases ended : p.rest = []
  · have stays : p.advance = p := by rw [advance, ended]
    refine ⟨0, ?_⟩
    rw [synchronize_eq, stays, skipped_of_atEnd ended]
    rfl
  · obtain ⟨count, same⟩ := exists_skipped_eq_advanceBy (consumed_advance_ne_nil ended)
    exact ⟨count + 1, same⟩

theorem position_synchronize_of_atEnd (ended : p.position = p.tokens.length) :
    p.synchronize.position = p.tokens.length := by
  have stays : p.advance = p := by rw [advance, rest_eq_nil_iff.mpr ended]
  rw [synchronize_eq, stays, skipped_of_atEnd (rest_eq_nil_iff.mpr ended), ended]

theorem position_synchronize_of_inFront (inFront : p.position < p.tokens.length) :
    IsLeast {q | p.position < q ∧ q ≤ p.tokens.length ∧ p.recovery.ResumesAt p.tokens q}
      p.synchronize.position := by
  have present : p.rest ≠ [] := mt rest_eq_nil_iff.mp (Nat.ne_of_lt inFront)
  have least := skipped_isLeast (consumed_advance_ne_nil present)
  rwa [tokens_advance, recovery_advance, position_advance present] at least

/-- Recovery passes over tokens one by one and does nothing else: it stays at the end of the tokens,
and goes to the first place behind the cursor where a statement may start if there is a token
left. -/
theorem synchronize_isLeast (p : Parser) :
    (∃ count, p.synchronize = p.advanceBy count) ∧
      p.synchronize.diagnostics = p.diagnostics ∧
      p.synchronize.tokens = p.tokens ∧
      (p.position = p.tokens.length → p.synchronize.position = p.tokens.length) ∧
      (p.position < p.tokens.length →
        IsLeast {q | p.position < q ∧ q ≤ p.tokens.length ∧ p.recovery.ResumesAt p.tokens q}
          p.synchronize.position) :=
  ⟨p.exists_synchronize_eq_advanceBy, p.synchronize_diagnostics,
    (Reaches.synchronize p).tokens_eq, position_synchronize_of_atEnd,
    position_synchronize_of_inFront⟩

end Parser

end FrontEnd
