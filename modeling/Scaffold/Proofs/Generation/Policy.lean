import Scaffold.Assembly.Generate
import Scaffold.Proofs.Fragment.Relation

/-!
# Plans under the strict policy

The policy is asked for twice, by the check of a project and by the relations of every entity. Where
the check finds no error, no relation is left to be refused, so that a strict plan is a check and
then a permissive plan (`plan_strict`).
-/

namespace Scaffold

theorem Module.assemble_strict {p : Project} {e : Entity} (h : Relations.unresolvedParents p e = [])
    (base : BaseCode) : assemble p .strict base e = assemble p .permissive base e := by
  rw [assemble, assemble, Relations.expand_of_unresolvedParents_eq_nil .strict h,
    Relations.expand_of_unresolvedParents_eq_nil .permissive h]

/-- The policy does not matter where all parents are declared. -/
theorem Application.assemble_strict {p : Project} (h : p.openRelations p.entities = [])
    (base : BaseCode) : assemble p .strict base = assemble p .permissive base := by
  have hmodules : p.entities.mapM (Module.assemble p .strict base) =
      p.entities.mapM (Module.assemble p .permissive base) :=
    mapM_congr fun e he => Module.assemble_strict (Project.openRelations_eq_nil_iff.1 h e he) base
  rw [assemble, assemble, hmodules]

theorem Issue.firstError?_eq_map_find? (issues : List Issue) :
    firstError? issues = (issues.find? fun i => i.severity = .error).map (·.cause) := by
  rw [firstError?, causes, List.head?_map, List.head?_filter]

theorem plan_permissive (base : BaseCode) (p : Project) :
    plan (.ok base) p .permissive = (Application.assemble p .permissive base).mapError .project :=
  rfl

theorem exists_plan_permissive_iff {base : BaseCode} {p : Project} :
    (∃ a, plan (.ok base) p .permissive = .ok a) ↔
      ∃ a, Application.assemble p .permissive base = .ok a := by
  simp only [plan_permissive, mapError_eq_ok_iff]

/-- What a check lets pass is planned as if the policy were permissive. -/
theorem plan_strict_of_check {p : Project} (h : ∀ i ∈ p.check .strict, i.severity ≠ .error)
    (base : BaseCode) : plan (.ok base) p .strict = plan (.ok base) p .permissive := by
  have hnone : Issue.firstError? (p.check .strict) = none := by
    rw [Issue.firstError?_eq_map_find?, Option.map_eq_none_iff, List.find?_eq_none]
    simpa using h
  have hstrict : plan (.ok base) p .strict =
      (Application.assemble p .strict base).mapError .project := by
    simp only [plan, hnone]
    rfl
  rw [hstrict, plan_permissive,
    Application.assemble_strict (Project.openRelations_eq_nil_of_check h)]

/-- A strict plan is a permissive one, unless the base code could not be loaded or the strict check
finds an error. -/
theorem plan_strict (loaded : Except Error BaseCode) (p : Project) :
    plan loaded p .strict =
      match loaded with
      | .error e => .error e
      | .ok base =>
        match (p.check .strict).find? fun i => i.severity = .error with
        | some issue => .error (.project issue.cause)
        | none => plan (.ok base) p .permissive := by
  cases loaded with
  | error e => rfl
  | ok base =>
    cases hfind : (p.check .strict).find? fun i => i.severity = .error with
    | none =>
      refine plan_strict_of_check (fun i hi => ?_) base
      simpa using List.find?_eq_none.1 hfind i hi
    | some issue =>
      have hfirst : Issue.firstError? (p.check .strict) = some issue.cause := by
        rw [Issue.firstError?_eq_map_find?, hfind]
        rfl
      simp only [plan, hfirst]
      rfl

end Scaffold
