import FrontEnd.Expr.Tree
import FrontEnd.Proofs.Expr.Walk

/-!
# Lists of the labels of an expression

The list of its labels names the parts of an expression in the order in which a walk comes to them,
each with its distance from the root (`Lists`).  The distances alone tell where the parts of a part
end, so the list determines the tree (`ToldApart`).  Together with what walks do, this is
`traversals_agree`.
-/

namespace FrontEnd

namespace Expr

/-- The label of the part in a list that starts at a level. -/
def Visit.levelLabel (level : Int) (v : Visit) : LevelLabel :=
  ⟨level + v.address.length, v.node.label⟩

open Visit

section Labels

variable {e : Expr} {parts : List (List Visit)} {level : Int}

/-- The label of an expression, and behind it those of its direct parts. -/
theorem leveled_eq_foldl (list : List LevelLabel) (level : Int) (e : Expr) :
    e.leveled list level = e.children.foldl (fun list child => child.leveled list (level + 1))
      (list ++ [⟨level, e.label⟩]) := by
  cases e <;> rfl

theorem foldl_leveled {es : List Expr} (list : List LevelLabel)
    (each : ∀ e ∈ es, ∀ list, e.leveled list level = list ++ e.leveled [] level) :
    es.foldl (fun list e => e.leveled list level) list =
      list ++ es.flatMap fun e => e.leveled [] level := by
  induction es generalizing list with
  | nil => rw [List.foldl_nil, List.flatMap_nil, List.append_nil]
  | cons e es ih =>
      rw [List.forall_mem_cons] at each
      rw [List.foldl_cons, ih _ each.2, each.1, List.flatMap_cons, List.append_assoc]

/-- Labels are added behind those that are in the list. -/
theorem leveled_append (list : List LevelLabel) (level : Int) (e : Expr) :
    e.leveled list level = list ++ e.leveled [] level := by
  induction e using children_induction generalizing list level with
  | step e ih =>
      have each : ∀ child ∈ e.children, ∀ list,
          child.leveled list (level + 1) = list ++ child.leveled [] (level + 1) :=
        fun child member list => ih child member list (level + 1)
      rw [leveled_eq_foldl, foldl_leveled _ each, leveled_eq_foldl, foldl_leveled _ each,
        List.nil_append, List.append_assoc]

theorem leveled_nil (level : Int) (e : Expr) :
    e.leveled [] level =
      ⟨level, e.label⟩ :: e.children.flatMap fun child => child.leveled [] (level + 1) := by
  rw [leveled_eq_foldl, foldl_leveled _ fun child _ list => leveled_append list _ child]
  rfl

/-- Where nothing was rejected, the visits give the list of the labels. -/
def Lists (e : Expr) (visits : List Visit) : Prop :=
  (∀ v ∈ visits, v.accepted = true) →
    ∀ level, e.leveled [] level = visits.map (Visit.levelLabel level)

theorem Lists.rejected (e : Expr) : Lists e [root e false] := by
  intro all
  cases all _ (List.mem_singleton_self _)

theorem flatMap_leveled {es : List Expr} (each : List.Forall₂ Lists es parts)
    (all : ∀ v ∈ parts.flatten, v.accepted = true) (level : Int) :
    es.flatMap (fun e => e.leveled [] level) = parts.flatten.map (Visit.levelLabel level) := by
  induction each with
  | nil => rfl
  | cons first _ ih =>
      rw [List.flatten_cons, List.forall_mem_append] at all
      rw [List.flatMap_cons, first all.1, ih all.2, List.flatten_cons, List.map_append]

theorem Lists.accepted (each : List.Forall₂ Lists e.children parts) :
    Lists e (root e true :: join parts) := by
  intro all level
  rw [List.forall_mem_cons] at all
  have inParts : ∀ v ∈ parts.flatten, v.accepted = true := by
    intro v member
    obtain ⟨visits, here, inside⟩ := List.mem_flatten.mp member
    obtain ⟨i, here⟩ := List.getElem?_of_mem here
    exact all.2 (v.under i) (mem_join.mpr ⟨i, visits, here, v, inside, rfl⟩)
  -- Seen from the whole, each part of a direct part is one step further away.
  have shifted : ∀ i v, Visit.levelLabel level (v.under i) = Visit.levelLabel (level + 1) v := by
    intro i v
    rw [Visit.levelLabel, Visit.levelLabel, Visit.under, List.length_cons, Int.natCast_succ]
    congr 1
    omega
  rw [leveled_nil, flatMap_leveled each inParts, List.map_cons, map_join shifted]
  congr 1
  rw [Visit.levelLabel, root, List.length_nil]
  simp

end Labels

/-! ## Reading a tree off its labels -/

/-- The two trees have the same parts, at the same addresses and with the same labels. -/
def Alike (e f : Expr) : Prop :=
  ∀ address, (e.part? address).map label = (f.part? address).map label

/-- The first of the labels, if there is one, is not below a level. -/
def StartsAbove (level : Int) (list : List LevelLabel) : Prop :=
  ∀ item ∈ list.head?, item.level ≤ level

/-- Where a list starts both with the labels of `e` and with those of another expression, they end at
the same place, and the two trees are alike. -/
def ToldApart (e : Expr) : Prop :=
  ∀ f level u v, StartsAbove level u → StartsAbove level v →
    e.leveled [] level ++ u = f.leveled [] level ++ v → Alike e f ∧ u = v

section Reading

variable {e f : Expr} {level : Int} {u v : List LevelLabel}

theorem Alike.of_children (same : e.label = f.label)
    (each : List.Forall₂ Alike e.children f.children) : Alike e f := by
  intro address
  cases address with
  | nil => exact congrArg some same
  | cons i address =>
      rw [part?, part?]
      rcases forall₂_getElem? each i with ⟨nothing, nothing'⟩ | ⟨c, d, here, there, alike⟩
      · rw [nothing, nothing']
      · rw [here, there]
        exact alike address

/-- The labels of several expressions start at the level of the expressions. -/
theorem startsAbove_flatMap (es : List Expr) (above : StartsAbove level u) :
    StartsAbove (level + 1) (es.flatMap (fun e => e.leveled [] (level + 1)) ++ u) := by
  cases es with
  | nil =>
      intro item first
      exact (above item first).trans (by omega)
  | cons e es =>
      intro item first
      rw [List.flatMap_cons, leveled_nil] at first
      rw [← Option.some_inj.mp first]

/-- Expressions at one level are told apart by the labels of this level: each starts one. -/
theorem forall₂_alike_of_leveled {cs ds : List Expr} (toldApart : ∀ c ∈ cs, ToldApart c)
    (above : StartsAbove level u) (above' : StartsAbove level v)
    (same : cs.flatMap (fun e => e.leveled [] (level + 1)) ++ u =
      ds.flatMap (fun e => e.leveled [] (level + 1)) ++ v) :
    List.Forall₂ Alike cs ds ∧ u = v := by
  have deeper {d : Expr} {ds : List Expr} {u v : List LevelLabel} (above : StartsAbove level u) :
      u ≠ (d :: ds).flatMap (fun e => e.leveled [] (level + 1)) ++ v := by
    intro same
    rw [List.flatMap_cons, leveled_nil] at same
    have := above ⟨level + 1, d.label⟩ (by rw [same]; rfl)
    simp only at this
    omega
  induction cs generalizing ds with
  | nil =>
      cases ds with
      | nil => exact ⟨.nil, same⟩
      | cons d ds => exact absurd same (deeper above)
  | cons c cs ih =>
      cases ds with
      | nil => exact absurd same.symm (deeper above')
      | cons d ds =>
          rw [List.forall_mem_cons] at toldApart
          rw [List.flatMap_cons, List.flatMap_cons, List.append_assoc, List.append_assoc] at same
          obtain ⟨first, behind⟩ := toldApart.1 d (level + 1) _ _ (startsAbove_flatMap cs above)
            (startsAbove_flatMap ds above') same
          obtain ⟨rest, last⟩ := ih toldApart.2 behind
          exact ⟨.cons first rest, last⟩

theorem toldApart (e : Expr) : ToldApart e := by
  induction e using children_induction with
  | step e ih =>
      intro f level u v above above' same
      rw [leveled_nil, leveled_nil, List.cons_append, List.cons_append] at same
      obtain ⟨labels, behind⟩ := List.cons.inj same
      obtain ⟨parts, last⟩ := forall₂_alike_of_leveled ih above above' behind
      exact ⟨.of_children (LevelLabel.mk.inj labels).2 parts, last⟩

/-- The list of its labels determines a tree, and the level at which it starts. -/
theorem alike_of_leveled_eq {list : List LevelLabel} {k m : Int}
    (same : e.leveled list k = f.leveled list m) : k = m ∧ Alike e f := by
  rw [leveled_append, leveled_append list] at same
  have labels := List.append_cancel_left same
  have first := labels
  rw [leveled_nil, leveled_nil] at first
  obtain rfl := (LevelLabel.mk.inj (List.cons.inj first).1).1
  have nothing : StartsAbove k [] := nofun
  refine ⟨rfl, (toldApart e f k [] [] nothing nothing ?_).1⟩
  rw [labels]

end Reading

/-! ## The traversals agree -/

section Agreement

variable {e : Expr} {visits : List Visit}

theorem Covers.isGreatest_level (complete : e.complete = true) (covers : Covers e visits)
    (all : ∀ v ∈ visits, v.accepted = true) (level : Int) :
    IsGreatest {l | ∃ item ∈ visits.map (Visit.levelLabel level), item.level = l}
      (level + e.depth - 1) := by
  obtain ⟨⟨address, part, found, deep⟩, limit⟩ := isGreatest_length_address complete
  have positive : 0 < e.depth := Nat.zero_lt_of_lt (length_lt_depth complete found)
  constructor
  · obtain ⟨v, member, rfl, _⟩ := (covers.exists_visit_iff all address part).mpr found
    refine ⟨_, List.mem_map_of_mem member, ?_⟩
    change level + (v.address.length : Int) = _
    omega
  · intro l ⟨item, member, same⟩
    obtain ⟨v, inside, rfl⟩ := List.mem_map.mp member
    have here := (covers.exists_visit_iff all _ _).mp ⟨v, inside, rfl, rfl⟩
    have le : v.address.length ≤ e.depth - 1 := limit ⟨_, _, here, rfl⟩
    change level + (v.address.length : Int) = l at same
    omega

end Agreement

/-- A walk that accepts everything comes to all parts of a tree without holes, each in front of its
own parts and from left to right, and the list of the labels names them in this order, each at its
distance from the root, so that the greatest level is the height of the tree.  A walk with any
visitor comes to just those of them that lie below no part that it rejected.  And trees with the same
list of labels are alike. -/
theorem traversals_agree {e : Expr} (complete : e.complete = true) :
    (∃ visits : List Visit,
      (e.calls (fun _ => pure true) ()).1 = visits.map Visit.toCall ∧
      (∀ v ∈ visits, v.accepted = true) ∧ Covers e visits ∧
      ∀ (list : List LevelLabel) (level : Int),
        e.leveled list level = list ++ visits.map (Visit.levelLabel level) ∧
        IsGreatest {l | ∃ item ∈ visits.map (Visit.levelLabel level), item.level = l}
          (level + e.depth - 1)) ∧
    (∀ (σ : Type) (visit : Expr → StateM σ Bool) (s : σ), ∃ visits : List Visit,
      e.calls visit s = (visits.map Visit.toCall, ((e.walk visit).run s).2) ∧ Covers e visits) ∧
    ∀ (f : Expr) (list : List LevelLabel) (k m : Int),
      e.leveled list k = f.leveled list m → k = m ∧ Alike e f := by
  have walks {σ : Type} (visit : Expr → StateM σ Bool) (s : σ) : ∃ visits,
      (Covers e visits ∧ Lists e visits) ∧
        Follows visit (e.walk (recorded visit)) (e.walk visit) s visits := by
    apply exists_visits_of_walk (P := fun e visits => Covers e visits ∧ Lists e visits) ?_ ?_ visit
      complete s
    · exact fun e => ⟨.rejected e, .rejected e⟩
    · intro e parts each
      exact ⟨.accepted (each.imp fun _ _ both => both.1),
        .accepted (each.imp fun _ _ both => both.2)⟩
  refine ⟨?_, ?_, ?_⟩
  · obtain ⟨visits, ⟨covers, lists⟩, follows⟩ := walks (fun _ => pure true) ()
    have all : ∀ v ∈ visits, v.accepted = true := by
      intro v member
      obtain ⟨_, answer⟩ := follows.answers v member
      exact answer.symm
    refine ⟨visits, ?_, all, covers, ?_⟩
    · rw [calls, follows.run_eq]
      rfl
    · intro list level
      refine ⟨?_, covers.isGreatest_level complete all level⟩
      rw [leveled_append, lists all]
  · intro σ visit s
    obtain ⟨visits, ⟨covers, _⟩, follows⟩ := walks visit s
    refine ⟨visits, ?_, covers⟩
    rw [calls, follows.run_eq]
    rfl
  · exact fun f list k m same => alike_of_leveled_eq same

/-- The tree of `-(1 + 2)`. -/
def negatedSum : Expr :=
  let token (kind : TokenKind) (b : UInt8) (column : Int) : Token :=
    ⟨kind, [b], ⟨1, column⟩, ⟨column - 1, column⟩, none⟩
  .unary (token 1 0x2D 1) (.grouped (token 2 0x28 2)
    (.binary (.literal (token 3 0x31 3)) (token 4 0x2B 5) (.literal (token 3 0x32 7))))

/-- A visitor that counts its calls and rejects everything from the second one on. -/
def onlyFirst (_ : Expr) : StateM Nat Bool := do
  modify (· + 1)
  return (← get) < 2

/-- The list of the labels of `-(1 + 2)`, and a walk that ends at its second call. -/
theorem traversals_agree_negatedSum :
    negatedSum.complete = true ∧
    (∃ visits : List Visit, Covers negatedSum visits ∧
      (negatedSum.calls (fun _ => pure true) ()).1 = visits.map Visit.toCall ∧
      negatedSum.leveled [] 0 = visits.map (Visit.levelLabel 0) ∧
      (negatedSum.leveled [] 0).map LevelLabel.level = [0, 1, 2, 3, 3]) ∧
    ∃ visits : List Visit, Covers negatedSum visits ∧
      visits.map (fun v => v.accepted) = [true, false] := by
  obtain ⟨⟨all, called, _, covers, lists⟩, walks, _⟩ :=
    traversals_agree (show negatedSum.complete = true from rfl)
  refine ⟨rfl, ⟨all, covers, called, (lists [] 0).1, by decide⟩, ?_⟩
  obtain ⟨few, called, covers⟩ := walks Nat onlyFirst 0
  have answers : (negatedSum.calls onlyFirst 0).1.map Call.accepted = [true, false] := by decide
  rw [called, List.map_map] at answers
  exact ⟨few, covers, answers⟩

end Expr

end FrontEnd
