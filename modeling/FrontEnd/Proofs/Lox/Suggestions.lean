import FrontEnd.Lox.Suggest
import FrontEnd.Proofs.Text.Stretch
import Mathlib.Data.List.Infix
import Mathlib.Order.Bounds.Basic

/-!
# Suggestions are nearest keywords

The distance between two words is the least number of single edits that turn the one into the other
(`distance_isLeast`), and the distance that is computed row by row is the same
(`editDistance_eq_distance`).

The search for a suggestion goes through the keywords once and keeps the best one so far.
`Leads word ks best` says what has been found in the keywords `ks` that were looked at: one more
keyword keeps this relation (`Leads.betterOf`), and so does the whole search (`leads_foldl`).

Main statement: `suggest?_nearest`, the suggestion is the nearest keyword, the first one in the
order of words if there are several, and there is none if it is too far or the word is a keyword.
-/

namespace FrontEnd

namespace Lox

variable {xs ys zs : List Char} {x y c : Char} {n : Nat}

/-! ## The least number of edits -/

/-- One word becomes another one by a single edit, at its front or behind its first character. -/
inductive Edit : List Char → List Char → Prop where
  | insert (c : Char) (xs : List Char) : Edit xs (c :: xs)
  | delete (c : Char) (xs : List Char) : Edit (c :: xs) xs
  | replace (c d : Char) (xs : List Char) : Edit (c :: xs) (d :: xs)
  | behind {xs ys : List Char} (c : Char) (edit : Edit xs ys) : Edit (c :: xs) (c :: ys)

/-- One word becomes another one by `n` single edits. -/
inductive Edits : Nat → List Char → List Char → Prop where
  | none (xs : List Char) : Edits 0 xs xs
  | more {n : Nat} {xs ys zs : List Char} (edit : Edit xs ys) (edits : Edits n ys zs) :
      Edits (n + 1) xs zs

@[simp] theorem distance_nil_left (ys : List Char) : distance [] ys = ys.length := by
  rw [distance]

@[simp] theorem distance_nil_right (xs : List Char) : distance xs [] = xs.length := by
  cases xs <;> simp [distance]

theorem distance_cons_cons (x y : Char) (xs ys : List Char) :
    distance (x :: xs) (y :: ys) =
      min (min (distance xs (y :: ys) + 1) (distance (x :: xs) ys + 1))
        (distance xs ys + if x = y then 0 else 1) := by
  rw [distance]

theorem distance_cons_left_le (x : Char) (xs ys : List Char) :
    distance (x :: xs) ys ≤ distance xs ys + 1 := by
  cases ys with
  | nil => simp
  | cons y ys =>
      rw [distance_cons_cons]
      omega

theorem distance_cons_right_le (xs : List Char) (y : Char) (ys : List Char) :
    distance xs (y :: ys) ≤ distance xs ys + 1 := by
  cases xs with
  | nil => simp
  | cons x xs =>
      rw [distance_cons_cons]
      omega

/-- A word that a single edit turns into another one is at most one further away. -/
theorem Edit.distance_le (edit : Edit xs ys) (zs : List Char) :
    distance xs zs ≤ distance ys zs + 1 := by
  induction edit generalizing zs with
  | insert c xs =>
      induction zs with
      | nil =>
          simp only [distance_nil_right, List.length_cons]
          omega
      | cons z zs ih =>
          have longer := distance_cons_right_le xs z zs
          rw [distance_cons_cons]
          omega
  | delete c xs => exact distance_cons_left_le c xs zs
  | replace c d xs =>
      induction zs with
      | nil => simp
      | cons z zs ih =>
          rw [distance_cons_cons, distance_cons_cons]
          split <;> split <;> omega
  | behind c edit ih =>
      induction zs with
      | nil =>
          have shorter := ih []
          simp only [distance_nil_right, List.length_cons] at shorter ⊢
          omega
      | cons z zs ihz =>
          have front := ih (z :: zs)
          have both := ih zs
          rw [distance_cons_cons, distance_cons_cons]
          omega

theorem Edits.distance_le (edits : Edits n xs ys) : distance xs ys ≤ n := by
  induction edits with
  | none xs =>
      induction xs with
      | nil => simp
      | cons x xs ih =>
          rw [distance_cons_cons, if_pos rfl]
          omega
  | more edit _ ih =>
      have step := edit.distance_le
      exact (step _).trans (Nat.succ_le_succ ih)

theorem Edits.behind (c : Char) (edits : Edits n xs ys) : Edits n (c :: xs) (c :: ys) := by
  induction edits with
  | none xs => exact .none (c :: xs)
  | more edit _ ih => exact .more (.behind c edit) ih

theorem edits_insert (ys : List Char) : Edits ys.length [] ys := by
  induction ys with
  | nil => exact .none []
  | cons y ys ih => exact .more (.insert y []) (ih.behind y)

theorem edits_delete (xs : List Char) : Edits xs.length xs [] := by
  induction xs with
  | nil => exact .none []
  | cons x xs ih => exact .more (.delete x xs) ih

/-- The edits can be made that the distance counts. -/
theorem edits_distance (xs ys : List Char) : Edits (distance xs ys) xs ys := by
  fun_induction distance xs ys with
  | case1 ys => exact edits_insert ys
  | case2 xs => exact edits_delete xs
  | case3 x xs y ys deleted inserted kept =>
      have deletes : Edits (distance xs (y :: ys) + 1) (x :: xs) (y :: ys) :=
        .more (.delete x xs) deleted
      have inserts : Edits (distance (x :: xs) ys + 1) (x :: xs) (y :: ys) :=
        .more (.insert y (x :: xs)) (inserted.behind y)
      have keeps : Edits (distance xs ys + if x = y then 0 else 1) (x :: xs) (y :: ys) := by
        split
        · subst y
          exact kept.behind x
        · exact .more (.replace x y xs) (kept.behind y)
      have oneOf (i j k : Nat) :
          min (min i j) k = i ∨ min (min i j) k = j ∨ min (min i j) k = k := by
        omega
      rcases oneOf _ _ _ with least | least | least
      · rw [least]
        exact deletes
      · rw [least]
        exact inserts
      · rw [least]
        exact keeps

/-- The distance is the least number of single edits from one word to the other. -/
theorem distance_isLeast (xs ys : List Char) : IsLeast {n | Edits n xs ys} (distance xs ys) :=
  ⟨edits_distance xs ys, fun _ edits => edits.distance_le⟩

theorem distance_eq_zero_iff : distance xs ys = 0 ↔ xs = ys := by
  constructor
  · intro none
    have edits := edits_distance xs ys
    rw [none] at edits
    cases edits
    rfl
  · intro same
    subst same
    exact Nat.le_zero.mp (Edits.none xs).distance_le

/-! ## Row by row -/

/-- One row of distances after the other. -/
theorem distancesCons_tails (x : Char) (xs ys : List Char) :
    distancesCons x ys (ys.tails.map (distance xs)) = ys.tails.map (distance (x :: xs)) := by
  induction ys with
  | nil => simp [distancesCons]
  | cons y ys ih =>
      obtain ⟨more, split⟩ : ∃ more, ys.tails = ys :: more := by cases ys <;> simp
      simp only [List.tails_cons, List.map_cons, distancesCons]
      rw [ih, split]
      simp only [List.map_cons]
      rw [distance_cons_cons]

theorem distances_eq (xs ys : List Char) : distances xs ys = ys.tails.map (distance xs) := by
  induction xs with
  | nil =>
      change (List.range (ys.length + 1)).reverse = _
      induction ys with
      | nil => simp
      | cons y ys ih =>
          rw [List.length_cons, List.range_succ, List.reverse_append, ih]
          simp
  | cons x xs ih =>
      rw [← distancesCons_tails, ← ih]
      rfl

/-- The distance that is computed row by row is the distance. -/
theorem editDistance_eq_distance (xs ys : List Char) : editDistance xs ys = distance xs ys := by
  rw [editDistance, distances_eq]
  cases ys <;> simp

/-! ## The search -/

section Search

variable {word : List Char} {ks : List Symbol} {best : Option (Symbol × Nat)} {k : Symbol}

/-- The distance of a word to the spelling of a symbol. -/
def distanceTo (word : List Char) (k : Symbol) : Nat := distance word k.spelling.chars

/-- A keyword is near enough to a word to be suggested for it. -/
def IsNear (word : List Char) (k : Symbol) : Prop :=
  distanceTo word k ≤ maxDistance ∧ distanceTo word k < word.length

/-- What a search has found that has gone through the keywords `ks`: the first one of the nearest
keywords, or nothing if none is near enough. -/
inductive Leads (word : List Char) (ks : List Symbol) : Option (Symbol × Nat) → Prop where
  | nothing (far : ∀ k ∈ ks, ¬ IsNear word k) : Leads word ks none
  | nearest {before after : List Symbol} {k : Symbol} (split : ks = before ++ k :: after)
      (near : IsNear word k) (further : ∀ j ∈ before, distanceTo word k < distanceTo word j)
      (noNearer : ∀ j ∈ after, distanceTo word k ≤ distanceTo word j) :
      Leads word ks (some (k, distanceTo word k))

/-- A keyword that is nearer than all before it takes the lead. -/
theorem Leads.overtaken (near : IsNear word k)
    (further : ∀ j ∈ ks, distanceTo word k < distanceTo word j) :
    Leads word (ks ++ [k]) (some (k, distanceTo word k)) :=
  .nearest rfl near further (by simp)

theorem betterOf_eq (word : List Char) (best : Option (Symbol × Nat)) (k : Symbol) :
    betterOf word best k =
      if distanceTo word k < (best.map (·.2)).getD (maxDistance + 1) ∧
          distanceTo word k < word.length then some (k, distanceTo word k)
      else best := by
  unfold betterOf
  rw [editDistance_eq_distance]
  rfl

/-- One more keyword. -/
theorem Leads.betterOf (leads : Leads word ks best) (k : Symbol) :
    Leads word (ks ++ [k]) (betterOf word best k) := by
  rw [betterOf_eq]
  cases leads with
  | nothing far =>
      simp only [Option.map_none, Option.getD_none]
      split
      · rename_i better
        have near : IsNear word k := ⟨Nat.le_of_lt_succ better.1, better.2⟩
        refine .overtaken near fun j member => ?_
        have other := far j member
        unfold IsNear at near other
        omega
      · rename_i worse
        refine .nothing fun j member => ?_
        rw [List.mem_append, List.mem_singleton] at member
        rcases member with earlier | latest
        · exact far j earlier
        · subst latest
          unfold IsNear
          omega
  | @nearest before after leader split near further noNearer =>
      simp only [Option.map_some, Option.getD_some]
      split
      · rename_i better
        have limit := near.1
        refine .overtaken ⟨by omega, better.2⟩ fun j member => ?_
        rw [split, List.mem_append, List.mem_cons] at member
        rcases member with earlier | same | later
        · exact better.1.trans (further j earlier)
        · subst same
          exact better.1
        · exact better.1.trans_le (noNearer j later)
      · rename_i worse
        have short := near.2
        have longer : ks ++ [k] = before ++ leader :: (after ++ [k]) := by simp [split]
        refine .nearest longer near further fun j member => ?_
        rw [List.mem_append, List.mem_singleton] at member
        rcases member with earlier | latest
        · exact noNearer j earlier
        · subst latest
          omega

theorem Leads.foldl (leads : Leads word ks best) (more : List Symbol) :
    Leads word (ks ++ more) (more.foldl (Lox.betterOf word) best) := by
  induction more generalizing ks best with
  | nil => simpa using leads
  | cons k more ih =>
      have next := ih (leads.betterOf k)
      rwa [List.append_assoc] at next

theorem leads_foldl (word : List Char) (ks : List Symbol) :
    Leads word ks (ks.foldl (betterOf word) none) := by
  have start : Leads word [] none := .nothing (by simp)
  exact start.foldl ks

end Search

/-! ## Keywords -/

theorem keywords_sorted : Symbol.keywords.Pairwise fun j k => j.spelling ≤ k.spelling := by
  decide

theorem keyword_eq_of_le {j k : Symbol} (isKeyword : j ∈ Symbol.keywords)
    (isKeywordToo : k ∈ Symbol.keywords) (le : j.spelling ≤ k.spelling)
    (ge : k.spelling ≤ j.spelling) : j = k := by
  have all : ∀ j ∈ Symbol.keywords, ∀ k ∈ Symbol.keywords,
      j.spelling ≤ k.spelling → k.spelling ≤ j.spelling → j = k := by
    decide
  exact all j isKeyword k isKeywordToo le ge

/-- A word is at no distance to a keyword exactly if it is that keyword. -/
theorem distanceTo_eq_zero_iff {lexeme : Text} {k : Symbol} (isKeyword : k ∈ Symbol.keywords) :
    distanceTo lexeme.chars k = 0 ↔ lexeme = k.spelling := by
  have all : ∀ k ∈ Symbol.keywords, k.spelling.all (· < 0x80) = true := by
    decide
  have ascii (b : UInt8) (here : b ∈ k.spelling) : b < 0x80 :=
    of_decide_eq_true (List.all_eq_true.mp (all k isKeyword) b here)
  rw [distanceTo, distance_eq_zero_iff]
  constructor
  · exact Text.eq_of_chars_eq ascii
  · exact congrArg Text.chars

/-- The keyword `k` is the one to suggest for a word: the word is no keyword, and `k` is the first
one, in the order of words, of the keywords nearest to it, at a distance of at most two that is less
than the number of characters of the word. -/
structure Suggested (lexeme : Text) (k : Symbol) : Prop where
  isKeyword : k ∈ Symbol.keywords
  misspelled : ∀ j ∈ Symbol.keywords, lexeme ≠ j.spelling
  nearest : ∀ j ∈ Symbol.keywords,
    distance lexeme.chars k.spelling.chars ≤ distance lexeme.chars j.spelling.chars
  first : ∀ j ∈ Symbol.keywords,
    distance lexeme.chars j.spelling.chars = distance lexeme.chars k.spelling.chars →
      k.spelling ≤ j.spelling
  near : distance lexeme.chars k.spelling.chars ≤ 2
  short : distance lexeme.chars k.spelling.chars < lexeme.chars.length

theorem Suggested.unique {lexeme : Text} {j k : Symbol} (suggested : Suggested lexeme j)
    (suggestedToo : Suggested lexeme k) : j = k := by
  have same := Nat.le_antisymm (suggested.nearest k suggestedToo.isKeyword)
    (suggestedToo.nearest j suggested.isKeyword)
  exact keyword_eq_of_le suggested.isKeyword suggestedToo.isKeyword
    (suggested.first k suggestedToo.isKeyword same.symm)
    (suggestedToo.first j suggested.isKeyword same)

/-- What a search through all keywords finds for a word that is none of them. -/
theorem Leads.suggested {lexeme : Text} {best : Option (Symbol × Nat)}
    (leads : Leads lexeme.chars Symbol.keywords best)
    (misspelled : ∀ j ∈ Symbol.keywords, lexeme ≠ j.spelling) (k : Symbol) :
    best.map (·.1) = some k ↔ Suggested lexeme k := by
  cases leads with
  | nothing far =>
      refine iff_of_false (by simp) fun suggested => ?_
      exact far k suggested.isKeyword ⟨suggested.near, suggested.short⟩
  | @nearest before after leader split near further noNearer =>
      have suggested : Suggested lexeme leader := by
        have inOrder := keywords_sorted
        rw [split, List.pairwise_append, List.pairwise_cons] at inOrder
        refine ⟨by simp [split], misspelled, fun j member => ?_, fun j member same => ?_, near.1,
          near.2⟩
        · rw [split, List.mem_append, List.mem_cons] at member
          rcases member with earlier | same | later
          · exact Nat.le_of_lt (further j earlier)
          · exact Nat.le_of_eq (by rw [same])
          · exact noNearer j later
        · rw [split, List.mem_append, List.mem_cons] at member
          rcases member with earlier | same | later
          · exact absurd same.symm (Nat.ne_of_lt (further j earlier))
          · rw [same]
            exact List.le_refl _
          · exact inOrder.2.1.1 j later
      rw [Option.map_some, Option.some_inj]
      constructor
      · intro same
        exact same ▸ suggested
      · exact suggested.unique

/-- The suggestion for a word is the keyword that is nearest to it, the first one in the order of
words if there are several, provided that the word is no keyword and that the distance is at most
two and less than the number of characters of the word; otherwise there is no suggestion. -/
theorem suggest?_nearest (lexeme : Text) :
    (∀ k, suggest? lexeme = some k ↔ Suggested lexeme k) ∧
      (suggest? lexeme = none ↔ ∀ k, ¬ Suggested lexeme k) := by
  have found : ∀ k, suggest? lexeme = some k ↔ Suggested lexeme k := by
    intro k
    unfold suggest?
    simp only [editDistance_eq_distance, List.any_eq_true, decide_eq_true_eq]
    split
    · rename_i isKeyword
      obtain ⟨j, member, none⟩ := isKeyword
      refine iff_of_false (by simp) fun suggested => ?_
      exact suggested.misspelled j member ((distanceTo_eq_zero_iff member).mp none)
    · rename_i other
      refine (leads_foldl lexeme.chars Symbol.keywords).suggested (fun j member same => ?_) k
      exact other ⟨j, member, (distanceTo_eq_zero_iff member).mpr same⟩
  refine ⟨found, ?_⟩
  simp only [Option.eq_none_iff_forall_ne_some, Ne, found]

end Lox

end FrontEnd
