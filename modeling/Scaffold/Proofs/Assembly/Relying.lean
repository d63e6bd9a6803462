import Scaffold.Assembly.Relying
import Scaffold.Proofs.Assembly.Application
import Scaffold.Proofs.BaseCode.Basic
import Scaffold.Proofs.Error.Paths

/-!
# Paths that an assembly relies on

No path that an assembly makes on its way is a breach, so that one which makes them all anew is the
assembly (`Relying.application_eq`).
-/

namespace Scaffold.Relying

section
variable {p : Project} {policy : RelationPolicy} {base : BaseCode}

theorem content_eq (base : BaseCode) (file : BaseFile) :
    content base file = (base.content file).mapError .project := by
  have hpath : ContainedPath.relied file.path = .ok (BaseCode.location file) :=
    ContainedPath.relied_eq_ok_iff.2 rfl
  rw [content, hpath, ok_bind, BaseCode.content]
  cases h : base.content? ⟨file.path⟩ <;> simp [BaseCode.location, h]

theorem ensureComplete_eq (base : BaseCode) :
    ensureComplete base = base.ensureComplete.mapError .project := by
  rw [BaseCode.ensureComplete, mapError_forM, ensureComplete]
  congr 1
  funext file
  rw [content_eq]
  cases base.content file <;> rfl

theorem file_eq (app : String) (e : Entity) (relations : Relations) (model : Model) :
    file base app e relations model = (Module.file base app e relations model).mapError .project := by
  rw [file, Module.file, mapError_bind, BaseFile.placeOf?]
  cases model.path e with
  | error cause => rfl
  | ok path =>
    simp only [content_eq, mapError_bind]
    rfl

theorem module_eq (e : Entity) :
    module p policy base e = (Module.assemble p policy base e).mapError .project := by
  have hfiles (relations : Relations) : Model.all.mapM (file base p.camelName e relations) =
      (Model.all.mapM (Module.file base p.camelName e relations)).mapError .project := by
    rw [mapError_mapM]
    exact mapM_congr fun model _ => file_eq _ _ _ _
  simp only [module, Module.assemble, mapError_bind, hfiles]
  rfl

theorem paths_directoriesAbove (files : List (ContainedPath × String)) :
    (directoriesAbove files).paths = (Application.directoriesOf files).map (·.path) := by
  have hfold (ds : List ContainedPath) (s : PathSet) (m : PathMap ContainedPath)
      (h : s.paths = m.paths) :
      ((ds.map (·.path)).foldl (fun found d => found.insertNew d ()) s).paths =
        (ds.foldl (fun found d => found.insertNew d.path d) m).paths := by
    induction ds generalizing s m with
    | nil => exact h
    | cons d ds ih => exact ih _ _ (PathMap.paths_insertNew_congr h d.path () d)
  have hall : (files.flatMap fun f =>
      f.1.path.parent.ancestors.takeWhile fun directory => !directory.text.isEmpty) =
        (files.flatMap fun f => f.1.directories).map (·.path) := by
    rw [List.map_flatMap]
    exact List.flatMap_congr fun f _ => f.1.map_path_directories.symm
  have hentries := (Application.foldl_insertNew (files.flatMap fun f => f.1.directories) .empty).1
  rw [directoriesAbove, hall, hfold _ _ PathMap.empty rfl, Application.directoriesOf, List.map_map]
  refine List.map_congr_left fun e he => ?_
  rcases hentries e he with hmem | ⟨d, -, rfl⟩
  · simp [PathMap.empty] at hmem
  · rfl

theorem tree_eq (files : List (ContainedPath × String)) :
    tree files = .ok (Application.treeOf files) := by
  have hdirectories (ds : List ContainedPath) :
      (ds.map (·.path)).mapM (fun d => ContainedPath.relied d.text) = .ok ds := by
    induction ds with
    | nil => rfl
    | cons d ds ih => exact mapM_cons_eq_ok_iff.2 ⟨d, ds, d.relied_text, ih, rfl⟩
  rw [tree, paths_directoriesAbove, hdirectories, ok_bind]
  rfl

/-- An assembly that makes its paths anew is the assembly. -/
theorem application_eq (p : Project) (policy : RelationPolicy) (base : BaseCode) :
    application p policy base = (Application.assemble p policy base).mapError .project := by
  have hmodules : p.entities.mapM (module p policy base) =
      (p.entities.mapM (Module.assemble p policy base)).mapError .project := by
    rw [mapError_mapM]
    exact mapM_congr fun e _ => module_eq e
  simp only [application, Application.assemble, mapError_bind, mapError_mapM, ensureComplete_eq,
    tree_eq, ok_bind, hmodules]
  rfl

end

end Scaffold.Relying
