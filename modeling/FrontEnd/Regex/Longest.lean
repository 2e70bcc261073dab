import FrontEnd.Regex.Basic

/-!
# The longest match

Several regular expressions are matched against the front of a text at once.  The longest
text that one of them matches wins, and of several expressions that match it, the first.

If nothing is matched, it matters how far the match came: up to and including the first
byte with which no expression could go on, or to the end of the text.
-/

namespace FrontEnd

namespace Regex

/-- Expressions with what may still follow for each of them, and with a name `α` each. -/
abbrev Matching (α : Type) := List (α × List Regex)

namespace Matching

variable {α : Type}

/-- The state behind one more byte: expressions that cannot go on are left out. -/
def next (live : Matching α) (b : UInt8) : Matching α :=
  (live.map fun (name, rs) => (name, (rs.flatMap (partials b)).eraseDups)).filter
    fun (_, rs) => !rs.isEmpty

/-- The first expression that matches exactly the bytes so far. -/
def accepted? (live : Matching α) : Option α :=
  (live.find? fun (_, rs) => rs.any nullable).map (·.1)

end Matching

/-- How a match ended. -/
structure Longest (α : Type) where
  /-- The length of the longest match and the name of its expression. -/
  best : Option (Nat × α)
  /-- The number of bytes that were looked at. -/
  seen : Nat
  deriving Repr

/-- The longest match of expressions that have already read `seen` bytes. -/
def longestFrom {α : Type} (live : Matching α) (best : Option (Nat × α)) (seen : Nat) :
    Text → Longest α
  | [] => ⟨best, seen⟩
  | b :: rest =>
    let live := live.next b
    if live.isEmpty then ⟨best, seen + 1⟩
    else
      let best :=
        match live.accepted? with
        | some name => some (seen + 1, name)
        | none => best
      longestFrom live best (seen + 1) rest

/-- The longest match, of at least one byte, at the front of a text. -/
def longest {α : Type} (patterns : List (α × Regex)) (t : Text) : Longest α :=
  longestFrom (patterns.map fun (name, r) => (name, [r])) none 0 t

theorem best_longestFrom {α : Type} (live : Matching α) (best : Option (Nat × α)) (seen : Nat)
    (t : Text) {n : Nat} {a : α} (h : (longestFrom live best seen t).best = some (n, a)) :
    best = some (n, a) ∨ seen < n ∧ n ≤ seen + t.length := by
  induction t generalizing live best seen with
  | nil => exact .inl h
  | cons b rest ih =>
    simp only [longestFrom] at h
    split at h
    · exact .inl h
    · rcases ih _ _ _ h with h | ⟨h, k⟩
      · split at h
        · simp only [Option.some.injEq, Prod.mk.injEq] at h
          simp only [List.length_cons]
          exact .inr (by omega)
        · exact .inl h
      · simp only [List.length_cons]
        exact .inr (by omega)

/-- A match has at least one byte, and no more than there are. -/
theorem best_longest {α : Type} {patterns : List (α × Regex)} {t : Text} {n : Nat} {a : α}
    (h : (longest patterns t).best = some (n, a)) : 0 < n ∧ n ≤ t.length := by
  rcases best_longestFrom _ _ _ _ h with h | h
  · simp at h
  · omega

end Regex

end FrontEnd
