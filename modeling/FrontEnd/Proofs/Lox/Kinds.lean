import FrontEnd.Lox.Grammar
import Mathlib.Data.List.Basic

/-!
# Telling tokens apart by their kinds

Different symbols have different numbers, so a token belongs to at most one of two lists of
symbols without a common member.  This is what lets a reader decide by the next token alone.
-/

namespace FrontEnd

namespace Lox

namespace Symbol

theorem mem_all (s : Symbol) : s ∈ all := by
  cases s <;> decide

/-- Different symbols have different numbers. -/
theorem kind_inj {s u : Symbol} : s.kind = u.kind ↔ s = u := by
  have places : s.kind = u.kind ↔ all.idxOf s = all.idxOf u := by
    change (all.idxOf s : Int) + 1 = (all.idxOf u : Int) + 1 ↔ _
    omega
  rw [places]
  exact List.idxOf_inj (mem_all s)

/-- No symbol is a comment. -/
theorem kind_ne_comment (s : Symbol) : s.kind ≠ TokenKind.comment := by
  change (all.idxOf s : Int) + 1 ≠ -8
  omega

/-- A token of a symbol in some column of the first line, without a value. -/
def inColumn (s : Symbol) (column : Int) : Token :=
  ⟨s.kind, [], ⟨1, column⟩, ⟨column - 1, column⟩, none⟩

end Symbol

section IsOneOf

variable {symbols others : List Symbol} {s : Symbol} {t : Token} {ts behind : List Token}

theorem isOneOf_iff : isOneOf symbols t = true ↔ ∃ s ∈ symbols, t.kind = s.kind := by
  simp only [isOneOf, List.any_eq_true, decide_eq_true_eq]
  constructor
  · rintro ⟨s, member, same⟩
    exact ⟨s, member, same.symm⟩
  · rintro ⟨s, member, same⟩
    exact ⟨s, member, same.symm⟩

theorem isOneOf_iff_mem_map : isOneOf symbols t = true ↔ t.kind ∈ symbols.map Symbol.kind := by
  rw [isOneOf_iff, List.mem_map]
  apply exists_congr
  intro s
  exact and_congr_right fun _ => eq_comm

theorem isOneOf_singleton : isOneOf [s] t = true ↔ t.kind = s.kind := by
  simp [isOneOf_iff]

theorem isOneOf_singleton_eq_false : isOneOf [s] t = false ↔ ¬ t.kind = s.kind := by
  rw [Bool.eq_false_iff, ne_eq, isOneOf_singleton]

theorem isOneOf_append :
    isOneOf (symbols ++ others) t = (isOneOf symbols t || isOneOf others t) :=
  List.any_append

theorem isOneOf_of_subset (subset : symbols ⊆ others) (one : isOneOf symbols t = true) :
    isOneOf others t = true := by
  obtain ⟨s, member, known⟩ := isOneOf_iff.mp one
  exact isOneOf_iff.mpr ⟨s, subset member, known⟩

/-- A token of a known kind is one of the symbols of a list if its own symbol is. -/
theorem isOneOf_of_kind (known : t.kind = s.kind) :
    isOneOf symbols t = decide (s ∈ symbols) := by
  rw [Bool.eq_iff_iff, isOneOf_iff, decide_eq_true_iff]
  constructor
  · rintro ⟨u, member, same⟩
    have : s = u := Symbol.kind_inj.mp (known.symm.trans same)
    exact this ▸ member
  · intro member
    exact ⟨s, member, known⟩

/-- A token is in at most one of two lists of symbols without a common member. -/
theorem isOneOf_eq_false (apart : ∀ s ∈ symbols, s ∉ others) (one : isOneOf symbols t = true) :
    isOneOf others t = false := by
  obtain ⟨s, member, known⟩ := isOneOf_iff.mp one
  rw [isOneOf_of_kind known, decide_eq_false_iff_not]
  exact apart s member

/-- A comment is no symbol of Lox. -/
theorem not_comment_of_isOneOf (one : isOneOf symbols t = true) :
    t.kind ≠ TokenKind.comment := by
  obtain ⟨s, _, known⟩ := isOneOf_iff.mp one
  rw [known]
  exact Symbol.kind_ne_comment s

/-- Whether the first of some tokens is one of the given symbols. -/
def nextIsOneOf (symbols : List Symbol) (ts : List Token) : Bool :=
  ts.head?.any (isOneOf symbols)

@[simp] theorem nextIsOneOf_nil : nextIsOneOf symbols [] = false := rfl

@[simp] theorem nextIsOneOf_cons : nextIsOneOf symbols (t :: ts) = isOneOf symbols t := rfl

/-- Tokens behind the first do not matter. -/
theorem nextIsOneOf_append (present : ts ≠ []) :
    nextIsOneOf symbols (ts ++ behind) = nextIsOneOf symbols ts := by
  obtain ⟨t, rest, rfl⟩ := List.exists_cons_of_ne_nil present
  rfl

end IsOneOf

namespace Level

/-- An operator belongs to one level only. -/
theorem eq_of_isOneOf {level other : Level} {t : Token}
    (here : isOneOf level.operators t = true) (there : isOneOf other.operators t = true) :
    level = other := by
  by_contra different
  have apart : ∀ s ∈ level.operators, s ∉ other.operators := by
    cases level <;> cases other <;> first | exact absurd rfl different | decide
  rw [isOneOf_eq_false apart here] at there
  exact Bool.false_ne_true there

theorem rank_inj {level other : Level} : level.rank = other.rank ↔ level = other := by
  cases level <;> cases other <;> decide

end Level

end Lox

end FrontEnd
