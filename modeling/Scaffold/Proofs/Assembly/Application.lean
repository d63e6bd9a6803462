import Scaffold.Proofs.Assembly.Tree
import Scaffold.Proofs.Error.Paths
import Scaffold.Proofs.Path.Join

/-!
# The files of an application

An application is assembled exactly if every step of it gives a result and the tree of all files
passes its check (`Application.assemble_eq_ok_iff`). The files then stand where the base code and
the names of the entities say.
-/

namespace Scaffold

namespace Module

theorem of_file_eq_ok {base : BaseCode} {app : String} {e : Entity} {relations : Relations}
    {model : Model} {f : ModuleFile} (h : file base app e relations model = .ok f) :
    f.model = model ∧ f.path.text = model.location e := by
  simp only [file, bind_eq_ok_iff] at h
  obtain ⟨path, hpath, -, -, -, -, content, -, hf⟩ := h
  cases hf
  exact ⟨rfl, ContainedPath.ofText_eq_ok_iff.1 hpath⟩

/-- The files of a module are those of its entity, in the order of the models. -/
theorem of_assemble_eq_ok {p : Project} {policy : RelationPolicy} {base : BaseCode} {e : Entity}
    {m : Module} (h : assemble p policy base e = .ok m) :
    m.entity = e ∧ m.files.map (·.model) = Model.all ∧
      m.files.map (·.path.text) = Model.all.map (·.location e) := by
  simp only [assemble, bind_eq_ok_iff] at h
  obtain ⟨relations, -, files, hfiles, hm⟩ := h
  cases hm
  refine ⟨rfl, ?_, map_eq_of_mapM_eq_ok (fun _ _ hf => (of_file_eq_ok hf).2) hfiles⟩
  exact (map_eq_of_mapM_eq_ok (h := id) (fun _ _ hf => (of_file_eq_ok hf).1) hfiles).trans
    (List.map_id _)

end Module

namespace Application

theorem path_of_sharedFile_eq_ok {p : Project} {path : ContainedPath} {source : String}
    {f : ContainedPath × String} (h : sharedFile p path source = .ok f) : f.1 = path := by
  simp only [sharedFile] at h
  split at h
  · cases h
    rfl
  · obtain ⟨residual, -, h⟩ := bind_eq_ok_iff.1 h
    obtain ⟨content, -, h⟩ := bind_eq_ok_iff.1 h
    cases h
    rfl

/-- The files of modules with their contents. -/
def moduleFiles (modules : List Module) : List (ContainedPath × String) :=
  modules.flatMap fun m => m.files.map fun f => (f.path, f.content)

/-- What an application consists of: the results of all steps, in a tree that has been checked. -/
theorem assemble_eq_ok_iff {p : Project} {policy : RelationPolicy} {base : BaseCode}
    {a : Application} :
    assemble p policy base = .ok a ↔
      base.ensureComplete = .ok () ∧
      ∃ shared modules, base.sharedFiles.mapM (fun f => sharedFile p f.1 f.2) = .ok shared ∧
        p.entities.mapM (Module.assemble p policy base) = .ok modules ∧
        (treeOf (shared ++ moduleFiles modules)).validate = .ok () ∧
        a = {
          tree := treeOf (shared ++ moduleFiles modules)
          unresolvedParents := modules.flatMap fun m => m.unresolvedParents.map (m.entity.name, ·)
          withoutInput := modules.flatMap fun m => m.withoutInput.map (m.entity.name, ·) } := by
  simp only [assemble, bind_eq_ok_iff]
  constructor
  · rintro ⟨⟨⟩, hbase, shared, hshared, modules, hmodules, ⟨⟩, hvalid, h⟩
    exact ⟨hbase, shared, modules, hshared, hmodules, hvalid, (Except.ok.inj h).symm⟩
  · rintro ⟨hbase, shared, modules, hshared, hmodules, hvalid, rfl⟩
    exact ⟨(), hbase, shared, hshared, modules, hmodules, (), hvalid, rfl⟩

/-- Whatever the name of an entity is, its files stand in the directory of the scripts. -/
theorem app_mem_components_location (e : Entity) (model : Model) :
    .name "app" ∈ Path.components ⟨model.location e⟩ := by
  have hprefix : "app/".toList <+: (model.location e).toList := by
    cases model <;>
      simp [Model.location, Entity.viewsDirectory, Entity.directory, String.toList_append]
  obtain ⟨more, hmore⟩ := hprefix
  have hchars : Path.chars ⟨model.location e⟩ = "app".toList ++ '/' :: more := hmore.symm
  rw [Path.components, hchars, Path.segments_append_slash,
    Path.componentsOf_segments_append (by decide) (Path.segments_ne_nil _)]
  exact List.mem_append_left _ (by decide)

theorem texts_moduleFiles {p : Project} {policy : RelationPolicy} {base : BaseCode}
    {modules : List Module} (h : p.entities.mapM (Module.assemble p policy base) = .ok modules) :
    (moduleFiles modules).map (·.1.text) =
      p.entities.flatMap fun e => Model.all.map (·.location e) := by
  have hlocations : modules.map (fun m => m.files.map (·.path.text)) =
      p.entities.map fun e => Model.all.map (·.location e) :=
    map_eq_of_mapM_eq_ok (fun _ _ hm => (Module.of_assemble_eq_ok hm).2.2) h
  rw [List.flatMap_def, ← hlocations, moduleFiles, List.map_flatMap, List.flatMap_def]
  simp [Function.comp_def]

/-- Where the files of an application stand. -/
theorem texts_files {p : Project} {policy : RelationPolicy} {base : BaseCode}
    {shared : List (ContainedPath × String)} {modules : List Module}
    (hshared : base.sharedFiles.mapM (fun f => sharedFile p f.1 f.2) = .ok shared)
    (hmodules : p.entities.mapM (Module.assemble p policy base) = .ok modules) :
    (shared ++ moduleFiles modules).map (·.1.text) = base.sharedFiles.map (·.1.text) ++
      p.entities.flatMap fun e => Model.all.map (·.location e) := by
  have htexts : shared.map (·.1.text) = base.sharedFiles.map (·.1.text) :=
    map_eq_of_mapM_eq_ok
      (fun _ _ hf => congrArg ContainedPath.text (path_of_sharedFile_eq_ok hf)) hshared
  rw [List.map_append, htexts, texts_moduleFiles hmodules]

/-- What holds of the paths of the shared files and of those of the entities' files holds of all. -/
theorem forall_mem_files (good : Path → Prop) {p : Project} {base : BaseCode}
    (hbase : ∀ f ∈ base.sharedFiles, good f.1.path)
    (hlocation : ∀ e model, good ⟨Model.location e model⟩)
    {files : List (ContainedPath × String)}
    (htexts : files.map (·.1.text) = base.sharedFiles.map (·.1.text) ++
      p.entities.flatMap fun e => Model.all.map (·.location e)) :
    ∀ f ∈ files, good f.1.path := by
  intro f hf
  have hmem : f.1.text ∈ files.map (·.1.text) := List.mem_map.2 ⟨f, hf, rfl⟩
  rw [htexts] at hmem
  rcases List.mem_append.1 hmem with hmem | hmem
  · obtain ⟨g, hg, heq⟩ := List.mem_map.1 hmem
    have hpath : g.1.path = f.1.path := congrArg Path.mk heq
    exact hpath ▸ hbase g hg
  · obtain ⟨e, -, hmem⟩ := List.mem_flatMap.1 hmem
    obtain ⟨model, -, heq⟩ := List.mem_map.1 hmem
    have hpath : ⟨model.location e⟩ = f.1.path := congrArg Path.mk heq
    exact hpath ▸ hlocation e model

theorem components_ne_nil_of_mem_files {p : Project} {base : BaseCode}
    (hbase : ∀ f ∈ base.sharedFiles, f.1.path.components ≠ [])
    {files : List (ContainedPath × String)}
    (htexts : files.map (·.1.text) = base.sharedFiles.map (·.1.text) ++
      p.entities.flatMap fun e => Model.all.map (·.location e)) :
    ∀ f ∈ files, f.1.path.components ≠ [] :=
  forall_mem_files (fun p => p.components ≠ []) hbase
    (fun e model => List.ne_nil_of_mem (app_mem_components_location e model)) htexts

/-- What the paths of all files mean that a project and a base code give: those of the shared files
and those of the entities' files. -/
def places (p : Project) (base : BaseCode) : List (List Path.Component) :=
  base.sharedFiles.map (·.1.path.components) ++ p.entities.flatMap fun e =>
    Model.all.map fun model => Path.components ⟨model.location e⟩

section
variable {p : Project} {policy : RelationPolicy} {base : BaseCode}

theorem places_eq {shared : List (ContainedPath × String)} {modules : List Module}
    (hshared : base.sharedFiles.mapM (fun f => sharedFile p f.1 f.2) = .ok shared)
    (hmodules : p.entities.mapM (Module.assemble p policy base) = .ok modules) :
    (shared ++ moduleFiles modules).map (·.1.path.components) = places p base := by
  have htexts := congrArg (List.map fun text => Path.components ⟨text⟩) (texts_files hshared hmodules)
  simp only [List.map_append, List.map_map, List.map_flatMap, Function.comp_def] at htexts
  rw [List.map_append]
  exact htexts

/-- The tree of all files passes its check exactly if there is a file and their places stand apart
from each other. -/
theorem validate_files_iff (hne : ∀ f ∈ base.sharedFiles, f.1.path.components ≠ [])
    {shared : List (ContainedPath × String)} {modules : List Module}
    (hshared : base.sharedFiles.mapM (fun f => sharedFile p f.1 f.2) = .ok shared)
    (hmodules : p.entities.mapM (Module.assemble p policy base) = .ok modules) :
    (treeOf (shared ++ moduleFiles modules)).validate = .ok () ↔
      places p base ≠ [] ∧ (places p base).Pairwise Path.Apart := by
  have htexts := texts_files hshared hmodules
  rw [validate_treeOf_iff_apart (components_ne_nil_of_mem_files hne htexts),
    ← places_eq hshared hmodules, ne_eq, ne_eq, List.map_eq_nil_iff]

/-- An application is assembled exactly if no step fails and the files, of which there is one at
least, come to stand apart from each other. -/
theorem exists_assemble_eq_ok_iff (hne : ∀ f ∈ base.sharedFiles, f.1.path.components ≠ []) :
    (∃ a, assemble p policy base = .ok a) ↔
      base.ensureComplete = .ok () ∧
      (∀ f ∈ base.sharedFiles, ∃ r, sharedFile p f.1 f.2 = .ok r) ∧
      (∀ e ∈ p.entities, ∃ m, Module.assemble p policy base e = .ok m) ∧
      places p base ≠ [] ∧ (places p base).Pairwise Path.Apart := by
  constructor
  · rintro ⟨a, ha⟩
    obtain ⟨hcomplete, shared, modules, hshared, hmodules, hvalid, -⟩ := assemble_eq_ok_iff.1 ha
    exact ⟨hcomplete, exists_mapM_eq_ok_iff.1 ⟨_, hshared⟩, exists_mapM_eq_ok_iff.1 ⟨_, hmodules⟩,
      (validate_files_iff hne hshared hmodules).1 hvalid⟩
  · rintro ⟨hcomplete, hshared, hmodules, hplaces⟩
    obtain ⟨shared, hshared⟩ := exists_mapM_eq_ok hshared
    obtain ⟨modules, hmodules⟩ := exists_mapM_eq_ok hmodules
    have hvalid := (validate_files_iff hne hshared hmodules).2 hplaces
    exact ⟨_, assemble_eq_ok_iff.2 ⟨hcomplete, shared, modules, hshared, hmodules, hvalid, rfl⟩⟩

/-- If no step fails and no two files come to stand in the same place or in each other, an
application is assembled. -/
theorem exists_assemble_eq_ok (hcomplete : base.ensureComplete = .ok ())
    (hshared : ∀ f ∈ base.sharedFiles, ∃ r, sharedFile p f.1 f.2 = .ok r)
    (hmodules : ∀ e ∈ p.entities, ∃ m, Module.assemble p policy base e = .ok m)
    (hsome : base.sharedFiles ≠ [])
    (hne : ∀ f ∈ base.sharedFiles, f.1.path.components ≠ [])
    (hapart : (places p base).Pairwise Path.Apart) : ∃ a, assemble p policy base = .ok a :=
  (exists_assemble_eq_ok_iff hne).2
    ⟨hcomplete, hshared, hmodules, by simp [places, hsome], hapart⟩

end

end Application

end Scaffold
