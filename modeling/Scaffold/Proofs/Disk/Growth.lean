import Scaffold.Proofs.Disk.Walk

/-!
# Disks that grow

A disk grows where nodes are put at places that have none. What it had it still has, and what stands
below a place then stood there before or is new (`Disk.Grows.mem_below`).
-/

namespace Scaffold.Disk

open Scaffold.Path (IsName)

/-- The disks that have more on them than `d`: nodes that `new` allows, each put where there
was nothing. -/
inductive Grows (new : Place → Node → Prop) (d : Disk) : Disk → Prop
  | refl : Grows new d d
  | put {d' : Disk} {place : Place} {node : Node} : Grows new d d' → (∀ s ∈ place, IsName s.spelled) →
    d'.node? place = none → new place node → Grows new d (d'.put place node)

variable {d d' : Disk} {place : Place} {node : Node}

/-! ### What stands below a place -/

theorem mem_below_iff {x : Place × Node} :
    x ∈ d.below place ↔ ∃ e ∈ d.nodes.entries, e.1.startsWith place.spelled = true ∧
      e.1.same place.spelled = false ∧ (Place.ofSpelled e.1, e.2) = x := by
  simp only [below, List.mem_map, List.mem_filter, Bool.and_eq_true, Bool.not_eq_true', and_assoc]

/-- What stands at a place of names stands below every place that it lies in. -/
theorem mem_below_of_node? {names : List FileName} (hplace : ∀ s ∈ place, IsName s.spelled)
    (hnames : ∀ s ∈ names, IsName s.spelled) (hne : names ≠ [])
    (h : d.node? (place ++ names) = some node) : (place ++ names, node) ∈ d.below place := by
  have hall : ∀ s ∈ place ++ names, IsName s.spelled := List.forall_mem_append.2 ⟨hplace, hnames⟩
  have hempty : (place ++ names).isEmpty = false := by simp [hne]
  rw [node?, hempty] at h
  obtain ⟨e, he, hkey, hnode⟩ := PathMap.find?_eq_some_iff.1 h
  have hcomponents : e.1.components = .root :: (place ++ names).map fun s => .name s.spelled := by
    rw [Path.key_eq_iff.1 hkey, Place.components_spelled hall]
  refine mem_below_iff.2 ⟨e, he, ?_, ?_, ?_⟩
  · rw [Path.startsWith, List.isPrefixOf_iff_prefix, hcomponents, Place.components_spelled hplace,
      List.map_append]
    exact ⟨names.map fun s => .name s.spelled, rfl⟩
  · rw [Path.same, hkey, beq_eq_false_iff_ne, Ne, Place.key_spelled_eq_iff hall hplace]
    simpa using hne
  · rw [Place.ofSpelled_of_components hcomponents, hnode]

theorem key_not_mem_keys (h : d.node? place = none) : place.spelled.key ∉ d.nodes.keys := by
  have hempty : place.isEmpty = false := by simpa using ne_nil_of_node?_eq_none h
  rw [node?, hempty] at h
  rw [← PathMap.contains_iff, PathMap.contains_eq_isSome_find?]
  simpa using h

theorem mem_below_put (hplace : ∀ s ∈ place, IsName s.spelled) (h : d.node? place = none) {q : Place}
    {x : Place × Node} (hx : x ∈ (d.put place node).below q) : x ∈ d.below q ∨ x = (place, node) := by
  obtain ⟨e, he, hstarts, hsame, rfl⟩ := mem_below_iff.1 hx
  rcases (PathMap.mem_entries_insert (key_not_mem_keys h)).1 he with rfl | he
  · exact .inr (by rw [Place.ofSpelled_of_components (Place.components_spelled hplace)])
  · exact .inl (mem_below_iff.2 ⟨e, he, hstarts, hsame, rfl⟩)

namespace Grows

variable {new new' : Place → Node → Prop}

theorem trans {d'' : Disk} (h : Grows new d d') (h' : Grows new d' d'') : Grows new d d'' := by
  induction h' with
  | refl => exact h
  | put _ hplace hnone hnew ih => exact ih.put hplace hnone hnew

theorem mono (hmono : ∀ p n, new p n → new' p n) (h : Grows new d d') : Grows new' d d' := by
  induction h with
  | refl => exact .refl
  | put _ hplace hnone hnew ih => exact ih.put hplace hnone (hmono _ _ hnew)

theorem one (hplace : ∀ s ∈ place, IsName s.spelled) (hnone : d.node? place = none)
    (hnew : new place node) : Grows new d (d.put place node) := .put .refl hplace hnone hnew

theorem here_eq (h : Grows new d d') : d'.here = d.here := by
  induction h with
  | refl => rfl
  | put _ _ _ _ ih => exact ih

theorem node?_eq_some (h : Grows new d d') {q : Place} {m : Node} (hq : d.node? q = some m) :
    d'.node? q = some m := by
  induction h with
  | refl => exact hq
  | put _ _ hnone _ ih => exact node?_put_of_eq_some hnone ih

/-- What stands at a place stood there before or is new. -/
theorem of_node?_eq_some (h : Grows new d d') {q : Place} (hq : ∀ s ∈ q, IsName s.spelled) {m : Node}
    (hm : d'.node? q = some m) : d.node? q = some m ∨ new q m := by
  induction h with
  | refl => exact .inl hm
  | put _ hplace hnone hnew ih =>
    by_cases hnil : q = []
    · subst hnil
      exact ih hm
    · rw [node?_put hnil] at hm
      split at hm
      · rename_i hkey
        obtain rfl := (Place.key_spelled_eq_iff hplace hq).1 hkey
        obtain rfl := Option.some.inj hm
        exact .inr hnew
      · exact ih hm

/-- Where nothing new is allowed there is nothing new. -/
theorem node?_eq_none (h : Grows new d d') {q : Place} (hq : ∀ s ∈ q, IsName s.spelled)
    (hnew : ∀ n, ¬ new q n) (hnone : d.node? q = none) : d'.node? q = none := by
  refine Option.eq_none_iff_forall_ne_some.2 fun m hm => ?_
  rcases h.of_node?_eq_some hq hm with hold | hallowed
  · cases hnone.symm.trans hold
  · exact hnew m hallowed

theorem lookUp_eq_ok (h : Grows new d d') {p : RawPath} (hp : d.lookUp p = .ok (place, node)) :
    d'.lookUp p = .ok (place, node) := by
  rw [lookUp_eq_ok_iff] at hp ⊢
  obtain ⟨hzero, hne, hlong, hfollow⟩ := of_locate_eq_ok hp
  rw [locate_eq_follow hzero hne hlong, h.here_eq]
  exact follow_eq_found_of_subset (fun _ _ => h.node?_eq_some) hfollow

/-- What stands below a place stood there before or is new. -/
theorem mem_below (h : Grows new d d') {q : Place} {x : Place × Node} (hx : x ∈ d'.below q) :
    x ∈ d.below q ∨ new x.1 x.2 := by
  induction h with
  | refl => exact .inl hx
  | put _ hplace hnone hnew ih =>
    rcases mem_below_put hplace hnone hx with hx | rfl
    · exact ih hx
    · exact .inr hnew

/-- What a selection leaves out of all that is new, it leaves out of what stands below a place. -/
theorem filterMap_below {α : Type} {select : Place × Node → Option α} (h : Grows new d d')
    (hselect : ∀ p n, new p n → select (p, n) = none) (q : Place) :
    (d'.below q).filterMap select = (d.below q).filterMap select := by
  induction h with
  | refl => rfl
  | put _ hplace hnone hnew ih =>
    rw [← ih, Disk.below, Disk.below, List.filterMap_map, List.filterMap_map, List.filterMap_filter,
      List.filterMap_filter]
    refine PathMap.filterMap_entries_insert (key_not_mem_keys hnone) ?_
    rw [Function.comp_apply, Place.ofSpelled_of_components (Place.components_spelled hplace),
      hselect _ _ hnew, ite_self]

end Grows

end Scaffold.Disk
