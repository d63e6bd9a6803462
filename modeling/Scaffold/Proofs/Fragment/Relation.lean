import Scaffold.Proofs.Error.Steps
import Scaffold.Proofs.Project.Check
import Scaffold.Proofs.Project.Lookup

/-!
# Relations under the two policies

The relations of an entity are put together parent by parent. They have each fragment for every
parent in order (`Relations.expand_eq`), and fail over the parents that a check of the project
reports. The policy decides only whether there are relations, never what they are
(`Relations.eq_ofEntity_of_expand_eq_ok`). Under the strict policy the entities of a project fail
with the first parent that is not declared, and only if there is one
(`Relations.mapM_expand_strict`). Of the project they are expanded in, they read no more than the
singular names of the declared parents (`Relations.expand_congr`).
-/

namespace Scaffold.Relations

variable {p : Project} {policy : RelationPolicy} {e : Entity}

/-- The relations of an entity, with each fragment repeated for every parent in order. -/
def ofEntity (p : Project) (e : Entity) : Relations where
  injectedServices := String.join (e.parents.map Fragment.injectedService)
  boundServices := String.join (e.parents.map Fragment.boundService)
  fetchFunctions := String.join (e.parents.map Fragment.fetchFunction)
  fetchCalls := String.join (e.parents.map Fragment.fetchCall)
  selects := String.join ((e.parents.filterMap p.entity?).map Fragment.parentSelect)
  unresolved := unresolvedParents p e

/-! ### Parent by parent -/

theorem foldl_add (p : Project) (r : Relations) (parents : List String) :
    parents.foldl (fun r name => r.add name (p.entity? name)) r =
      { injectedServices := r.injectedServices ++ String.join (parents.map Fragment.injectedService)
        boundServices := r.boundServices ++ String.join (parents.map Fragment.boundService)
        fetchFunctions := r.fetchFunctions ++ String.join (parents.map Fragment.fetchFunction)
        fetchCalls := r.fetchCalls ++ String.join (parents.map Fragment.fetchCall)
        selects := r.selects ++
          String.join ((parents.filterMap p.entity?).map Fragment.parentSelect)
        unresolved := r.unresolved ++ parents.filter fun name => (p.entity? name).isNone } := by
  induction parents generalizing r with
  | nil => simp
  | cons name parents ih =>
    rw [List.foldl_cons, ih]
    cases h : p.entity? name <;> simp [add, h, String.append_assoc]

/-- The first parent that is not declared breaks a strict expansion off, and nothing else does. -/
theorem expandFrom_eq (p : Project) (policy : RelationPolicy) (entity : String) (r : Relations)
    (parents : List String) : expandFrom p policy entity r parents =
      match policy, parents.filter fun name => (p.entity? name).isNone with
      | .strict, name :: _ => .error (.unresolvedRelation entity name)
      | _, _ => .ok (parents.foldl (fun r name => r.add name (p.entity? name)) r) := by
  induction parents generalizing r with
  | nil => cases policy <;> rfl
  | cons name parents ih =>
    cases policy with
    | permissive =>
      cases h : p.entity? name <;> simp only [expandFrom, h, ih, List.foldl_cons]
    | strict =>
      cases h : p.entity? name with
      | none => simp [expandFrom, h]
      | some parent =>
        have hfilter : (name :: parents).filter (fun name => (p.entity? name).isNone) =
            parents.filter fun name => (p.entity? name).isNone := by simp [h]
        simp only [expandFrom, h, hfilter, ih, List.foldl_cons]

/-- What is expanded are the relations of the entity, unless the policy is strict and a check of the
project reports a parent. -/
theorem expand_eq (p : Project) (policy : RelationPolicy) (e : Entity) : expand p policy e =
      match policy, unresolvedParents p e with
      | .strict, name :: _ => .error (.unresolvedRelation e.name name)
      | _, _ => .ok (ofEntity p e) := by
  have hfold : e.parents.foldl (fun r name => r.add name (p.entity? name)) {} = ofEntity p e := by
    rw [foldl_add]
    simp [ofEntity, unresolvedParents]
  rw [expand, expandFrom_eq, hfold]
  rfl

/-! ### The two policies -/

theorem expand_permissive (p : Project) (e : Entity) : expand p .permissive e = .ok (ofEntity p e) :=
  expand_eq p .permissive e

theorem expand_strict (p : Project) (e : Entity) :
    expand p .strict e =
      match unresolvedParents p e with
      | [] => .ok (ofEntity p e)
      | parent :: _ => .error (.unresolvedRelation e.name parent) := by
  rw [expand_eq]
  cases unresolvedParents p e <;> rfl

theorem expand_of_unresolvedParents_eq_nil (policy : RelationPolicy)
    (h : unresolvedParents p e = []) : expand p policy e = .ok (ofEntity p e) := by
  cases policy with
  | permissive => exact expand_permissive p e
  | strict => rw [expand_strict, h]

theorem eq_ofEntity_of_expand_eq_ok {relations : Relations}
    (h : expand p policy e = .ok relations) : relations = ofEntity p e := by
  cases policy with
  | permissive => exact (Except.ok.inj ((expand_permissive p e).symm.trans h)).symm
  | strict =>
    rw [expand_strict] at h
    split at h
    · exact (Except.ok.inj h).symm
    · cases h

theorem of_expand_eq_error {cause : ProjectError} (h : expand p policy e = .error cause) :
    policy = .strict ∧ ∃ parent ∈ e.parents, p.entity? parent = none ∧
      .unresolvedRelation e.name parent = cause := by
  cases policy with
  | permissive =>
    rw [expand_permissive] at h
    cases h
  | strict =>
    rw [expand_strict] at h
    split at h
    · cases h
    · rename_i parent more hparents
      have hmem : parent ∈ unresolvedParents p e := by simp [hparents]
      obtain ⟨hparent, hnone⟩ := List.mem_filter.1 hmem
      exact ⟨rfl, parent, hparent, Option.isNone_iff_eq_none.1 hnone, Except.error.inj h⟩

/-- Under the strict policy, entities fail with the first of their parents that is not declared. -/
theorem mapM_expand_strict (p : Project) (entities : List Entity) :
    entities.mapM (expand p .strict) =
      match (p.openRelations entities).head? with
      | some (e, parent) => .error (.unresolvedRelation e parent)
      | none => .ok (entities.map (ofEntity p)) := by
  induction entities with
  | nil => rfl
  | cons e entities ih =>
    have hopen : p.openRelations (e :: entities) =
        (unresolvedParents p e).map (e.name, ·) ++ p.openRelations entities := rfl
    rw [List.mapM_cons, expand_strict, hopen, ih]
    -- the first parent that is not declared is one of `e`, if `e` has any
    cases unresolvedParents p e with
    | cons parent more => rfl
    | nil =>
      rw [List.map_nil, List.nil_append]
      cases (p.openRelations entities).head? <;> rfl

/-! ### What is read of a project -/

section
variable {q : Project}

theorem unresolvedParents_congr (h : e.SeesAlike p q) :
    unresolvedParents p e = unresolvedParents q e := by
  refine List.filter_congr fun name hname => ?_
  rw [← Option.isNone_map (f := (·.singular)), h name hname, Option.isNone_map]

/-- A select shows the name that its parent was looked up by, and the singular name. -/
theorem map_parentSelect_entity? (p : Project) (name : String) :
    (p.entity? name).map Fragment.parentSelect =
      ((p.entity? name).map (·.singular)).map fun singular =>
        Fragment.parentSelect { name, singular } := by
  cases h : p.entity? name with
  | none => rfl
  | some parent =>
    obtain ⟨-, rfl⟩ := Project.of_entity?_eq_some h
    rfl

theorem ofEntity_congr (h : e.SeesAlike p q) : ofEntity p e = ofEntity q e := by
  have hselects : e.parents.filterMap (fun name => (p.entity? name).map Fragment.parentSelect) =
      e.parents.filterMap fun name => (q.entity? name).map Fragment.parentSelect := by
    refine List.filterMap_congr fun name hname => ?_
    rw [map_parentSelect_entity?, map_parentSelect_entity?, h name hname]
  simp only [ofEntity, List.map_filterMap, hselects, unresolvedParents_congr h]

/-- Relations are the same in all projects that look alike to their entity. -/
theorem expand_congr (policy : RelationPolicy) (h : e.SeesAlike p q) :
    expand p policy e = expand q policy e := by
  cases policy with
  | permissive => rw [expand_permissive, expand_permissive, ofEntity_congr h]
  | strict => rw [expand_strict, expand_strict, unresolvedParents_congr h, ofEntity_congr h]

end

end Scaffold.Relations
