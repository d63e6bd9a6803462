import Scaffold.Assembly.Module
import Scaffold.BaseCode.Bundled
import Scaffold.Proofs.Fragment.Relation

/-!
# What a module takes from its project

A module is made from its entity and the base code. Of the project it takes the camel-cased name
and, for each of the parents, whether it is declared and by which singular name. Nothing else of the
other entities can come into it, so that modules may be made one by one.
-/

namespace Scaffold.Module

/-- Projects that go by one camel-cased name and look alike to an entity give it the same module, or
fail for the same reason. -/
theorem assemble_eq_of_seesAlike {p q : Project} (policy : RelationPolicy) (base : BaseCode)
    {e : Entity} (happ : p.camelName = q.camelName) (hparents : e.SeesAlike p q) :
    assemble p policy base e = assemble q policy base e := by
  rw [assemble, assemble, Relations.expand_congr policy hparents, happ]

/-- The parents of an entity in two projects that have little else in common. -/
theorem assemble_eq_of_makers :
    let car : Entity := ⟨"cars", "car", [⟨"price", .float, true, true, none⟩],
      ["makers", "lots", "makers"]⟩
    let p : Project := ⟨"Garage", none, [⟨"makers", "maker", [⟨"name", .text, true, true, none⟩], []⟩,
      car, ⟨"makers", "brand", [], ["lots"]⟩]⟩
    let q : Project := ⟨"Old cars", some "garage", [⟨"homes", "home", [], []⟩,
      ⟨"makers", "maker", [], ["cars"]⟩]⟩
    p.camelName = q.camelName ∧ car.SeesAlike p q ∧
      ∀ policy, assemble p policy Bundled.baseCode car = assemble q policy Bundled.baseCode car := by
  intro car p q
  have happ : p.camelName = q.camelName := by decide +kernel
  have hparents : car.SeesAlike p q := by
    unfold Entity.SeesAlike
    decide
  exact ⟨happ, hparents, fun policy => assemble_eq_of_seesAlike policy _ happ hparents⟩

end Scaffold.Module
