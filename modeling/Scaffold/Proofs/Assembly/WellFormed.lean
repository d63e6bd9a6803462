import Scaffold.Proofs.Assembly.Bundled

/-!
# What an application consists of

The tree of an application can be written entry by entry, and nothing that the base code and the
entities bring is lost on the way into it.
-/

namespace Scaffold

namespace Application

/-- The tree of an application is well formed. Its files are those of the base code outside
`app/components/base`, in the order of their paths, and the five files of every entity, in the order
of the entities. -/
theorem wellFormed_of_assemble {p : Project} {policy : RelationPolicy} {base : BaseCode}
    {a : Application} (hbase : ∀ f ∈ base.files.entries, f.1.components ≠ [])
    (h : assemble p policy base = .ok a) :
    a.tree.WellFormed ∧
      (base.files.entries.Pairwise fun f g => f.1.key < g.1.key) ∧
      ∃ (outside shared : List (ContainedPath × String)) (modules : List Module),
        outside.map (fun f => (f.1.path, f.2)) = base.files.entries.filter (fun f =>
          ¬ [.name "app", .name "components", .name "base"] <+: f.1.components) ∧
        a.tree.files.map (·.1.text) = outside.map (·.1.text) ++ p.entities.flatMap (fun e => [
          "app/components/" ++ e.name ++ "/" ++ e.name ++ ".services.js",
          "app/components/" ++ e.name ++ "/" ++ e.name ++ ".controller.js",
          "app/components/" ++ e.name ++ "/" ++ e.name ++ ".edit.controller.js",
          "app/components/" ++ e.name ++ "/views" ++ "/" ++ e.name ++ ".list.html",
          "app/components/" ++ e.name ++ "/views" ++ "/" ++ e.name ++ ".edit.html"]) ∧
        outside.mapM (fun f => sharedFile p f.1 f.2) = .ok shared ∧
        p.entities.mapM (Module.assemble p policy base) = .ok modules ∧
        a.tree.files = shared ++ moduleFiles modules := by
  obtain ⟨-, shared, modules, hshared, hmodules, hvalid, rfl⟩ := assemble_eq_ok_iff.1 h
  have htexts := texts_files hshared hmodules
  have hne : ∀ f ∈ base.sharedFiles, f.1.path.components ≠ [] :=
    fun f hf => hbase _ (BaseCode.mem_sharedFiles.1 hf).1
  refine ⟨wellFormed_treeOf (components_ne_nil_of_mem_files hne htexts) hvalid, base.files.sorted,
    base.sharedFiles, shared, modules, base.map_sharedFiles, ?_, hshared, hmodules, files_treeOf _⟩
  rw [files_treeOf, htexts]
  rfl

/-- An application of two entities, one of which belongs to the other. -/
theorem wellFormed_of_assemble_bundled :
    ∃ a, assemble ⟨"Garage", none, [⟨"makers", "maker", [], []⟩, ⟨"cars", "car", [], ["makers"]⟩]⟩
        .permissive Bundled.baseCode = .ok a ∧ a.tree.WellFormed ∧
      a.tree.files.map (·.1.text) = [
        "app/app.config.js",
        "app/app.js",
        "app/app.states.js",
        "app/components/home/home.controller.js",
        "app/components/home/views/home.html",
        "app/components/layout/views/header.html",
        "app/components/layout/views/sidebar.html",
        "app/styles/app.css",
        "index.html",
        "app/components/makers/makers.services.js",
        "app/components/makers/makers.controller.js",
        "app/components/makers/makers.edit.controller.js",
        "app/components/makers/views/makers.list.html",
        "app/components/makers/views/makers.edit.html",
        "app/components/cars/cars.services.js",
        "app/components/cars/cars.controller.js",
        "app/components/cars/cars.edit.controller.js",
        "app/components/cars/views/cars.list.html",
        "app/components/cars/views/cars.edit.html"] := by
  have hp : Project.IsPlain
      ⟨"Garage", none, [⟨"makers", "maker", [], []⟩, ⟨"cars", "car", [], ["makers"]⟩]⟩ := by
    decide +kernel
  obtain ⟨a, ha⟩ := exists_assemble_eq_ok Bundled.ensureComplete_baseCode
    (exists_sharedFile_eq_ok Bundled.isTemplated_baseCode hp)
    (Bundled.exists_module hp (by decide)) Bundled.sharedFiles_ne_nil
    (fun _ hf => Bundled.components_ne_nil _ (Bundled.mem_sharedPlaces hf))
    (Bundled.pairwise_places (by decide) (by decide))
  obtain ⟨hwell, -, outside, shared, modules, houtside, htexts, -⟩ :=
    wellFormed_of_assemble Bundled.components_ne_nil_of_mem_entries ha
  refine ⟨a, ha, hwell, ?_⟩
  have hbundled : outside.map (·.1.text) = (Bundled.baseCode.files.entries.filter fun f =>
      ¬ [.name "app", .name "components", .name "base"] <+: f.1.components).map (·.1.text) := by
    rw [← houtside, List.map_map]
    rfl
  rw [htexts, hbundled]
  decide +kernel

end Application

end Scaffold
