import Scaffold.Proofs.Assembly.Guards
import Scaffold.Proofs.Fragment.Relation

/-!
# What is noted beside an application

An application tells which parents were not declared and which fields have no input. Both are as the
description has them, entity by entity (`Application.omissions_of_assemble_eq_ok`), so that they
agree with what a check finds (`Application.diagnostics_agree`).
-/

namespace Scaffold

theorem Module.omissions_of_assemble_eq_ok {p : Project} {policy : RelationPolicy} {base : BaseCode}
    {e : Entity} {m : Module} (h : assemble p policy base e = .ok m) :
    m.entity = e ∧ m.unresolvedParents = Relations.unresolvedParents p e ∧
      m.withoutInput = (Fragment.withoutInput e).map (·.name) := by
  simp only [assemble, bind_eq_ok_iff] at h
  obtain ⟨relations, hrelations, files, -, hm⟩ := h
  cases hm
  cases Relations.eq_ofEntity_of_expand_eq_ok hrelations
  exact ⟨rfl, rfl, rfl⟩

namespace Application

/-- What is left out of an application is noted for every entity, in the order of the
description. -/
theorem omissions_of_assemble_eq_ok {p : Project} {policy : RelationPolicy} {base : BaseCode}
    {a : Application} (h : assemble p policy base = .ok a) :
    a.unresolvedParents = p.openRelations p.entities ∧
      a.withoutInput =
        p.entities.flatMap fun e => (Fragment.withoutInput e).map fun f => (e.name, f.name) := by
  obtain ⟨-, shared, modules, -, hmodules, -, rfl⟩ := assemble_eq_ok_iff.1 h
  constructor
  · refine flatMap_eq_of_mapM_eq_ok (fun e m hm => ?_) hmodules
    obtain ⟨rfl, hparents, -⟩ := Module.omissions_of_assemble_eq_ok hm
    rw [hparents]
  · refine flatMap_eq_of_mapM_eq_ok (fun e m hm => ?_) hmodules
    obtain ⟨rfl, -, hfields⟩ := Module.omissions_of_assemble_eq_ok hm
    rw [hfields, List.map_map]
    rfl

/-- What an application notes is what a check finds: the parents that are not declared, in the same
order and as often, beside the fields without an input. The first of these parents is also what a
strict expansion of all relations fails with. -/
theorem diagnostics_agree (p : Project) :
    (∀ base a, assemble p .permissive base = .ok a →
      a.unresolvedParents = (p.check .permissive).filterMap (·.cause.relation?) ∧
      a.withoutInput = p.entities.flatMap fun e =>
        (e.fields.filter fun f => (Fragment.input? f).isNone).map fun f => (e.name, f.name)) ∧
    ∀ policy, p.entities.mapM (Relations.expand p .strict) =
      match (p.check policy).findSome? (·.cause.relation?) with
      | some (e, parent) => .error (.unresolvedRelation e parent)
      | none => .ok (p.entities.map (Relations.ofEntity p)) := by
  refine ⟨fun base a h => ?_, fun policy => ?_⟩
  · obtain ⟨hparents, hfields⟩ := omissions_of_assemble_eq_ok h
    exact ⟨hparents.trans (p.filterMap_relation?_check .permissive).symm, hfields⟩
  · have hfirst : (p.check policy).findSome? (·.cause.relation?) =
        (p.openRelations p.entities).head? := by
      rw [← p.filterMap_relation?_check policy, List.head?_filterMap]
    rw [hfirst]
    exact Relations.mapM_expand_strict p p.entities

/-- An entity that names a parent twice that is not declared, and itself. -/
theorem diagnostics_agree_of_lots :
    let car : Entity := ⟨"cars", "car", [⟨"colour", .unknown, true, true, some "wheel"⟩],
      ["lots", "cars", "lots"]⟩
    ∃ a, assemble ⟨"Garage", none, [car]⟩ .permissive Bundled.baseCode = .ok a ∧
      a.unresolvedParents = [("cars", "lots"), ("cars", "lots")] ∧
      a.withoutInput = [("cars", "colour")] ∧
      [car].mapM (Relations.expand ⟨"Garage", none, [car]⟩ .strict) =
        .error (.unresolvedRelation "cars" "lots") := by
  intro car
  obtain ⟨a, ha⟩ := Bundled.exists_assemble_iff_fits.2
    (Bundled.fits (p := ⟨"Garage", none, [car]⟩) (by decide +kernel) (by decide) (by decide))
  obtain ⟨hnoted, hexpand⟩ := diagnostics_agree ⟨"Garage", none, [car]⟩
  obtain ⟨hparents, hfields⟩ := hnoted _ a ha
  have hfound : (Project.check ⟨"Garage", none, [car]⟩ .permissive).filterMap
      (·.cause.relation?) = [("cars", "lots"), ("cars", "lots")] := by decide +kernel
  have hfirst : (Project.check ⟨"Garage", none, [car]⟩ .permissive).findSome?
      (·.cause.relation?) = some ("cars", "lots") := by decide +kernel
  refine ⟨a, ha, hparents.trans hfound, hfields, ?_⟩
  rw [hexpand .permissive, hfirst]

end Application

end Scaffold
