import Scaffold.Project.Check

/-!
# What a check finds

The parents that are not declared are named by a check under either policy, once each and
in the order of the description (`Project.filterMap_relation?_check`). The policy decides
only how grave that is: under the strict one everything that a check finds is an error
(`Project.severity_of_mem_check`).
-/

namespace Scaffold

/-- The entity and the parent that an error is about, if it is about a parent that is not
declared. -/
def ProjectError.relation? : ProjectError → Option (String × String)
  | unresolvedRelation entity parent => some (entity, parent)
  | _ => none

/-! ### Issues of names -/

theorem Issue.mem_errorIf {condition : Prop} [Decidable condition] {cause : ProjectError}
    {i : Issue} : i ∈ errorIf condition cause ↔ condition ∧ i = ⟨.error, cause⟩ := by
  by_cases h : condition <;> simp [errorIf, h]

namespace Entity

variable {e : Entity} {earlier : List Entity} {i : Issue}

theorem exists_detail_of_mem_nameIssues (h : i ∈ e.nameIssues) :
    ∃ detail, i = ⟨.error, .invalidProject detail⟩ := by
  simp only [nameIssues, List.mem_append, List.mem_flatMap, Issue.mem_errorIf] at h
  rcases h with (⟨-, rfl⟩ | ⟨-, rfl⟩) | ⟨f, -, -, rfl⟩ <;> exact ⟨_, rfl⟩

theorem of_mem_nameIssues (h : i ∈ e.nameIssues) :
    i.severity = .error ∧ i.cause.relation? = none := by
  obtain ⟨detail, rfl⟩ := exists_detail_of_mem_nameIssues h
  exact ⟨rfl, rfl⟩

theorem of_mem_repeatIssues (h : i ∈ e.repeatIssues earlier) :
    i.severity = .error ∧ i.cause.relation? = none := by
  simp only [repeatIssues, List.mem_append, Issue.mem_errorIf] at h
  rcases h with ⟨-, rfl⟩ | ⟨-, rfl⟩ <;> exact ⟨rfl, rfl⟩

theorem filterMap_relation?_ownIssues (e : Entity) (earlier : List Entity) :
    (e.nameIssues ++ e.repeatIssues earlier).filterMap (·.cause.relation?) = [] := by
  refine List.filterMap_eq_nil_iff.2 fun i hi => ?_
  rcases List.mem_append.1 hi with hi | hi
  · exact (of_mem_nameIssues hi).2
  · exact (of_mem_repeatIssues hi).2

end Entity

namespace Project

/-! ### Parents that are not declared -/

/-- The parents of some entities that the project does not declare, each with its entity. -/
def openRelations (p : Project) (entities : List Entity) : List (String × String) :=
  entities.flatMap fun e => (Relations.unresolvedParents p e).map (e.name, ·)

theorem openRelations_eq_nil_iff {p : Project} {entities : List Entity} :
    p.openRelations entities = [] ↔ ∀ e ∈ entities, Relations.unresolvedParents p e = [] := by
  simp only [openRelations, List.flatMap_eq_nil_iff, List.map_eq_nil_iff]

section
variable (p : Project) (policy : RelationPolicy)

theorem filterMap_relation?_parentIssues (e : Entity) :
    (p.parentIssues policy e).filterMap (·.cause.relation?) =
      (Relations.unresolvedParents p e).map (e.name, ·) := by
  rw [parentIssues, List.filterMap_map, ← List.filterMap_eq_map]
  rfl

theorem filterMap_relation?_entityIssues (earlier rest : List Entity) :
    (p.entityIssues policy earlier rest).filterMap (·.cause.relation?) = p.openRelations rest := by
  induction rest generalizing earlier with
  | nil => rfl
  | cons e rest ih =>
    rw [entityIssues, List.filterMap_append, List.filterMap_append, ih,
      e.filterMap_relation?_ownIssues, filterMap_relation?_parentIssues]
    rfl

/-- The parents that a check finds not to be declared are those that are not, in order. -/
theorem filterMap_relation?_check :
    (p.check policy).filterMap (·.cause.relation?) = p.openRelations p.entities := by
  have hown : (Issue.errorIf (isBlankName p.name) (.invalidProject "project name is empty") ++
      Issue.errorIf (p.entities = []) (.invalidProject "project declares no objects")).filterMap
        (·.cause.relation?) = [] := by
    refine List.filterMap_eq_nil_iff.2 fun i hi => ?_
    simp only [List.mem_append, Issue.mem_errorIf] at hi
    rcases hi with ⟨-, rfl⟩ | ⟨-, rfl⟩ <;> rfl
  rw [check, List.filterMap_append, hown, filterMap_relation?_entityIssues, List.nil_append]

end

/-! ### Severity -/

variable {p : Project} {i : Issue}

theorem severity_of_mem_entityIssues {earlier rest : List Entity}
    (h : i ∈ p.entityIssues .strict earlier rest) : i.severity = .error := by
  induction rest generalizing earlier with
  | nil => cases h
  | cons e rest ih =>
    simp only [entityIssues, List.mem_append] at h
    rcases h with ((h | h) | h) | h
    · exact (Entity.of_mem_nameIssues h).1
    · exact (Entity.of_mem_repeatIssues h).1
    · obtain ⟨name, -, rfl⟩ := List.mem_map.1 h
      rfl
    · exact ih h

/-- The strict policy knows no warnings. -/
theorem severity_of_mem_check (h : i ∈ p.check .strict) : i.severity = .error := by
  simp only [check, List.mem_append, Issue.mem_errorIf] at h
  rcases h with (⟨-, rfl⟩ | ⟨-, rfl⟩) | h
  · rfl
  · rfl
  · exact severity_of_mem_entityIssues h

/-- A project without errors under the strict policy declares all parents. -/
theorem openRelations_eq_nil_of_check (h : ∀ i ∈ p.check .strict, i.severity ≠ .error) :
    p.openRelations p.entities = [] := by
  have hnone : p.check .strict = [] :=
    List.eq_nil_iff_forall_not_mem.2 fun i hi => h i hi (severity_of_mem_check hi)
  rw [← filterMap_relation?_check p .strict, hnone]
  rfl

end Project

end Scaffold
