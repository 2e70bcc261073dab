import FrontEnd.Proofs.Expr.Parts
import Mathlib.Data.List.Forall2

/-!
# Walks over expressions

A walk calls its visitor once for each part of an expression that lies below no part that the visitor
has rejected, in the order of the addresses, and for nothing else (`Covers`).  The visitor may
change its mind: its answers may depend on all its earlier calls.

What is true of a visit to a rejected part, and goes over from the visits to the direct parts to
those to the whole, is true of every walk (`exists_visits_of_walk`).
-/

namespace FrontEnd

namespace Expr

/-- A call of a visitor: what it was called with, and what it answered. -/
structure Call where
  node : Expr
  accepted : Bool

/-- A call, with the address of the part that it was for. -/
structure Visit extends Call where
  address : List Nat

/-- A visitor that keeps a record of its calls. -/
def recorded {σ : Type} (visit : Expr → StateM σ Bool) (node : Expr) :
    StateT (List Call) (StateM σ) Bool := do
  let accepted ← visit node
  modify (· ++ [⟨node, accepted⟩])
  return accepted

/-- The calls that a walk makes, one after the other, and the state that it leaves. -/
def calls {σ : Type} (visit : Expr → StateM σ Bool) (e : Expr) (s : σ) : List Call × σ :=
  let result := ((e.walk (recorded visit)).run []).run s
  (result.1.2, result.2)

/-- The visits are those to the parts of an expression that lie below no rejected part, one to each
and in the order of the addresses. -/
structure Covers (e : Expr) (visits : List Visit) : Prop where
  inOrder : visits.Pairwise fun u v => u.address < v.address
  exactly : ∀ address node, (∃ v ∈ visits, v.address = address ∧ v.node = node) ↔
    e.part? address = some node ∧ ∀ v ∈ visits, Above v.address address → v.accepted = true

/-! ## Visits to the parts of an expression -/

namespace Visit

/-- A visit to a part of the part with the number `i`, seen from the whole. -/
def under (i : Nat) (v : Visit) : Visit := { v with address := i :: v.address }

/-- The visit to an expression itself. -/
def root (e : Expr) (accepted : Bool) : Visit := ⟨⟨e, accepted⟩, []⟩

/-- The visits to the direct parts of an expression, seen from the whole. -/
def join (parts : List (List Visit)) : List Visit :=
  (parts.mapIdx fun i visits => visits.map (under i)).flatten

variable {parts : List (List Visit)} {v : Visit}

theorem mem_join : v ∈ join parts ↔
    ∃ i visits, parts[i]? = some visits ∧ ∃ u ∈ visits, under i u = v := by
  simp only [join, List.mem_flatten, List.mem_mapIdx]
  constructor
  · intro ⟨_, ⟨i, bound, same⟩, member⟩
    rw [← same] at member
    obtain ⟨u, inside, rfl⟩ := List.mem_map.mp member
    exact ⟨i, parts[i], List.getElem?_eq_getElem bound, u, inside, rfl⟩
  · intro ⟨i, visits, here, u, member, same⟩
    obtain ⟨bound, rfl⟩ := List.getElem?_eq_some_iff.mp here
    rw [← same]
    exact ⟨_, ⟨i, bound, rfl⟩, List.mem_map_of_mem member⟩

/-- What the place among the direct parts does not matter for is the same seen from the whole. -/
theorem map_join {α : Type} {f g : Visit → α} (same : ∀ i v, f (under i v) = g v)
    (parts : List (List Visit)) : (join parts).map f = parts.flatten.map g := by
  rw [join, List.map_flatten, List.map_flatten]
  congr 1
  apply List.ext_getElem?
  intro i
  rw [List.getElem?_map, List.getElem?_mapIdx, List.getElem?_map, Option.map_map]
  congr 1
  funext visits
  rw [Function.comp_apply, List.map_map]
  exact List.map_congr_left fun v _ => same i v

theorem pairwise_join (each : ∀ visits ∈ parts, visits.Pairwise fun u v => u.address < v.address) :
    (join parts).Pairwise fun u v => u.address < v.address := by
  rw [join, List.pairwise_flatten]
  constructor
  · intro visits member
    obtain ⟨i, bound, rfl⟩ := List.mem_mapIdx.mp member
    rw [List.pairwise_map]
    apply (each _ (List.getElem_mem bound)).imp
    intro u v before
    exact List.cons_lt_cons_iff.mpr (Or.inr ⟨rfl, before⟩)
  · rw [List.pairwise_iff_getElem]
    intro i j _ _ before x first y second
    rw [List.getElem_mapIdx] at first second
    obtain ⟨u, _, rfl⟩ := List.mem_map.mp first
    obtain ⟨v, _, rfl⟩ := List.mem_map.mp second
    exact List.cons_lt_cons_iff.mpr (Or.inl before)

end Visit

open Visit

theorem forall₂_getElem? {α β : Type} {R : α → β → Prop} {xs : List α} {ys : List β}
    (related : List.Forall₂ R xs ys) (i : Nat) :
    (xs[i]? = none ∧ ys[i]? = none) ∨ ∃ x y, xs[i]? = some x ∧ ys[i]? = some y ∧ R x y := by
  induction related generalizing i with
  | nil => exact Or.inl ⟨rfl, rfl⟩
  | cons first _ ih =>
      cases i with
      | zero => exact Or.inr ⟨_, _, rfl, rfl, first⟩
      | succ i => exact ih i

section Covering

variable {e : Expr} {parts : List (List Visit)}

theorem Covers.rejected (e : Expr) : Covers e [root e false] where
  inOrder := List.pairwise_singleton _ _
  exactly := by
    intro address node
    simp only [List.mem_singleton, exists_eq_left, forall_eq, root]
    cases address with
    | nil =>
        rw [part?_nil, Option.some_inj]
        exact ⟨fun ⟨_, same⟩ => ⟨same, fun above => absurd above not_above_nil⟩,
          fun ⟨same, _⟩ => ⟨rfl, same⟩⟩
    | cons i address =>
        constructor
        · intro ⟨same, _⟩
          cases same
        · intro ⟨_, accepted⟩
          cases accepted above_nil_cons

/-- Among the visits to the direct parts and below them, those above an address are visits to the
part that the address leads into. -/
theorem forall_above_join {visits : List Visit} {i : Nat} {address : List Nat}
    (here : parts[i]? = some visits) :
    (∀ v ∈ root e true :: join parts, Above v.address (i :: address) → v.accepted = true) ↔
      ∀ v ∈ visits, Above v.address address → v.accepted = true := by
  rw [List.forall_mem_cons]
  constructor
  · intro ⟨_, all⟩ v member above
    exact all (v.under i) (mem_join.mpr ⟨i, visits, here, v, member, rfl⟩)
      (above_cons_cons_iff.mpr ⟨rfl, above⟩)
  · intro all
    refine ⟨fun _ => rfl, ?_⟩
    intro v member above
    obtain ⟨j, others, there, u, inside, rfl⟩ := mem_join.mp member
    obtain ⟨rfl, closer⟩ := above_cons_cons_iff.mp above
    obtain rfl := Option.some.inj (here.symm.trans there)
    exact all u inside closer

theorem exists_mem_join {i : Nat} {address : List Nat} {node : Expr} :
    (∃ v ∈ root e true :: join parts, v.address = i :: address ∧ v.node = node) ↔
      ∃ visits, parts[i]? = some visits ∧ ∃ v ∈ visits, v.address = address ∧ v.node = node := by
  constructor
  · intro ⟨v, member, here, same⟩
    rcases List.mem_cons.mp member with rfl | member
    · cases here
    · obtain ⟨j, visits, there, u, inside, rfl⟩ := mem_join.mp member
      obtain ⟨rfl, rfl⟩ := List.cons.inj here
      exact ⟨visits, there, u, inside, rfl, same⟩
  · intro ⟨visits, there, v, member, here, same⟩
    refine ⟨v.under i, ?_, by rw [under, here], same⟩
    exact List.mem_cons_of_mem _ (mem_join.mpr ⟨i, visits, there, v, member, rfl⟩)

theorem Covers.accepted (each : List.Forall₂ Covers e.children parts) :
    Covers e (root e true :: join parts) where
  inOrder := by
    rw [List.pairwise_cons]
    constructor
    · intro v member
      obtain ⟨i, _, _, u, _, rfl⟩ := mem_join.mp member
      exact List.nil_lt_cons _ _
    · apply pairwise_join
      intro visits member
      obtain ⟨i, here⟩ := List.getElem?_of_mem member
      rcases forall₂_getElem? each i with ⟨_, nothing⟩ | ⟨child, _, _, there, covers⟩
      · rw [nothing] at here
        cases here
      · obtain rfl := Option.some.inj (here.symm.trans there)
        exact covers.inOrder
  exactly := by
    intro address node
    cases address with
    | nil =>
        rw [part?_nil, Option.some_inj]
        constructor
        · intro ⟨v, member, here, same⟩
          rcases List.mem_cons.mp member with rfl | member
          · exact ⟨same, fun _ _ above => absurd above not_above_nil⟩
          · obtain ⟨i, _, _, u, _, rfl⟩ := mem_join.mp member
            cases here
        · intro ⟨same, _⟩
          exact ⟨root e true, List.mem_cons_self, rfl, same⟩
    | cons i address =>
        rw [exists_mem_join, part?_cons_eq_some_iff]
        rcases forall₂_getElem? each i with
          ⟨noChild, noVisits⟩ | ⟨child, visits, here, there, covers⟩
        · simp [noChild, noVisits]
        · rw [forall_above_join there]
          simp only [here, there, Option.some_inj, exists_eq_left']
          exact covers.exactly address node

/-- Where nothing was rejected, all parts were visited. -/
theorem Covers.exists_visit_iff {visits : List Visit} (covers : Covers e visits)
    (all : ∀ v ∈ visits, v.accepted = true) (address : List Nat) (node : Expr) :
    (∃ v ∈ visits, v.address = address ∧ v.node = node) ↔ e.part? address = some node := by
  rw [covers.exactly]
  exact and_iff_left fun v member _ => all v member

end Covering

/-! ## Walks -/

section Walks

variable {σ : Type} {visit : Expr → StateM σ Bool} {e : Expr}

/-- A walk visits an expression, and if it is accepted, its direct parts one after the other. -/
theorem walk_eq_forM {m : Type → Type} [Monad m] [LawfulMonad m] (visit : Expr → m Bool)
    (present : e ≠ .hole) :
    e.walk visit = (do
      let accepted ← visit e
      if accepted then e.children.forM (walk visit)) := by
  cases e with
  | hole => exact absurd rfl present
  | literal t => simp [walk, children]
  | grouped paren inner => simp [walk, children]
  | unary op right => simp [walk, children]
  | binary left op right => simp [walk, children]
  | ternary condition yes no => simp [walk, children]

/-- The visits are the calls that a program makes from the state `s` on, if it keeps a record of them.
Without the record it does the same. -/
structure Follows (visit : Expr → StateM σ Bool) (recording : StateT (List Call) (StateM σ) Unit)
    (plain : StateM σ Unit) (s : σ) (visits : List Visit) : Prop where
  run_eq : ∀ earlier, (recording.run earlier).run s =
    (((), earlier ++ visits.map Visit.toCall), (plain.run s).2)
  answers : ∀ v ∈ visits, ∃ s, ((visit v.node).run s).1 = v.accepted

theorem run_stateM_bind {α β : Type} (x : StateM σ α) (f : α → StateM σ β) (s : σ) :
    (x >>= f).run s = (f (x.run s).1).run (x.run s).2 := rfl

theorem run_run_bind {α β : Type} (x : StateT (List Call) (StateM σ) α)
    (f : α → StateT (List Call) (StateM σ) β) (earlier : List Call) (s : σ) :
    ((x >>= f).run earlier).run s =
      ((f ((x.run earlier).run s).1.1).run ((x.run earlier).run s).1.2).run
        ((x.run earlier).run s).2 := rfl

theorem run_recorded (visit : Expr → StateM σ Bool) (node : Expr) (earlier : List Call) (s : σ) :
    ((recorded visit node).run earlier).run s =
      ((((visit node).run s).1, earlier ++ [⟨node, ((visit node).run s).1⟩]),
        ((visit node).run s).2) := rfl

/-- Walks over a list of expressions, one after the other. -/
theorem exists_visits_of_forM {P : Expr → List Visit → Prop} {es : List Expr}
    (each : ∀ e ∈ es, ∀ s, ∃ visits, P e visits ∧
      Follows visit (e.walk (recorded visit)) (e.walk visit) s visits) (s : σ) :
    ∃ parts, List.Forall₂ P es parts ∧
      Follows visit (es.forM (walk (recorded visit))) (es.forM (walk visit)) s parts.flatten := by
  induction es generalizing s with
  | nil =>
      refine ⟨[], .nil, ?_, List.forall_mem_nil _⟩
      intro earlier
      rw [List.flatten_nil, List.map_nil, List.append_nil]
      rfl
  | cons e es ih =>
      rw [List.forall_mem_cons] at each
      obtain ⟨visits, holds, first⟩ := each.1 s
      obtain ⟨parts, hold, rest⟩ := ih each.2 ((e.walk visit).run s).2
      refine ⟨visits :: parts, .cons holds hold, ?_, ?_⟩
      · intro earlier
        change ((e.walk (recorded visit) >>= fun _ => es.forM (walk (recorded visit))).run
          earlier).run s = _
        rw [run_run_bind, first.run_eq, rest.run_eq, List.flatten_cons, List.map_append,
          List.append_assoc]
        rfl
      · rw [List.flatten_cons, List.forall_mem_append]
        exact ⟨first.answers, rest.answers⟩

/-- What is true of a visit to a rejected part, and of the visits to an accepted part and its direct
parts if it is true of those to each of them, is true of the visits of every walk. -/
theorem exists_visits_of_walk {P : Expr → List Visit → Prop}
    (rejected : ∀ e, P e [root e false])
    (accepted : ∀ e parts, List.Forall₂ P e.children parts → P e (root e true :: join parts))
    (visit : Expr → StateM σ Bool) (complete : e.complete = true) (s : σ) :
    ∃ visits, P e visits ∧ Follows visit (e.walk (recorded visit)) (e.walk visit) s visits := by
  induction e using children_induction generalizing s with
  | step e ih =>
      rw [walk_eq_forM _ (ne_hole_of_complete complete),
        walk_eq_forM _ (ne_hole_of_complete complete)]
      cases answer : ((visit e).run s).1 with
      | false =>
          refine ⟨[root e false], rejected e, ?_, ?_⟩
          · intro earlier
            rw [run_run_bind, run_recorded, run_stateM_bind, answer]
            rfl
          · exact List.forall_mem_singleton.mpr ⟨s, answer⟩
      | true =>
          obtain ⟨parts, hold, rest⟩ := exists_visits_of_forM
            (fun child member => ih child member (complete_of_mem_children complete child member))
            ((visit e).run s).2
          refine ⟨root e true :: join parts, accepted e parts hold, ?_, ?_⟩
          · intro earlier
            have same : (join parts).map Visit.toCall = parts.flatten.map Visit.toCall :=
              map_join (fun _ _ => rfl) parts
            rw [run_run_bind, run_recorded, run_stateM_bind, answer, if_pos rfl, if_pos rfl,
              List.map_cons, same]
            refine (rest.run_eq _).trans ?_
            rw [List.append_assoc]
            rfl
          · rw [List.forall_mem_cons]
            refine ⟨⟨s, answer⟩, ?_⟩
            intro v member
            obtain ⟨i, visits, here, u, inside, rfl⟩ := mem_join.mp member
            exact rest.answers u (List.mem_flatten_of_mem (List.mem_of_getElem? here) inside)

end Walks

end Expr

end FrontEnd
