import Scaffold.BaseCode.Basic
import Scaffold.Proofs.Path.Components
import Scaffold.Proofs.Path.Map

/-!
# Files of a base code

A base code made of a list of files at different places has just these files
(`BaseCode.mem_entries_ofList`). The files that go into every application stand in the
order of their paths. The files that take part in the generation have places of their own,
none in another (`BaseCode.components_path_eq_of_prefix`).
-/

namespace Scaffold

theorem Model.mem_all (model : Model) : model ∈ Model.all := by cases model <;> decide

theorem Aggregate.mem_all (aggregate : Aggregate) : aggregate ∈ Aggregate.all := by
  cases aggregate <;> decide

namespace BaseCode

theorem mem_sharedFiles {base : BaseCode} {f : ContainedPath × String} :
    f ∈ base.sharedFiles ↔
      (f.1.path, f.2) ∈ base.files.entries ∧ f.1.path.startsWith modelDirectory = false := by
  simp only [sharedFiles, toList, List.mem_filter, Bool.not_eq_true']
  refine and_congr_left fun _ => ?_
  rw [List.mem_pmap]
  constructor
  · rintro ⟨e, he, rfl⟩
    exact he
  · intro he
    exact ⟨_, he, rfl⟩

theorem components_modelDirectory :
    modelDirectory.components = [.name "app", .name "components", .name "base"] := by
  decide +kernel

/-- The files that go into every application are those outside the directory of the models. -/
theorem map_sharedFiles (base : BaseCode) :
    base.sharedFiles.map (fun f => (f.1.path, f.2)) = base.files.entries.filter fun e =>
      ¬ [.name "app", .name "components", .name "base"] <+: e.1.components := by
  have hlist : base.toList.map (fun f => (f.1.path, f.2)) = base.files.entries := by
    rw [toList, List.map_pmap]
    exact (List.pmap_eq_map ..).trans (List.map_id _)
  rw [← hlist, sharedFiles, List.filter_map]
  refine congrArg _ (List.filter_congr fun e _ => ?_)
  rw [Path.startsWith, components_modelDirectory, Bool.eq_iff_iff, Bool.not_eq_true',
    Bool.eq_false_iff, Ne, List.isPrefixOf_iff_prefix]
  exact (decide_eq_true_iff).symm

theorem pairwise_toList (base : BaseCode) :
    base.toList.Pairwise fun f g => f.1.path.key < g.1.path.key := by
  rw [toList, List.pairwise_pmap]
  exact base.files.sorted.imp fun hlt _ _ => hlt

theorem pairwise_sharedFiles (base : BaseCode) :
    base.sharedFiles.Pairwise fun f g => f.1.path.key < g.1.path.key :=
  base.pairwise_toList.sublist List.filter_sublist

/-! ### Base code from a list of files -/

section
variable {files : List (ContainedPath × String)}

theorem files_ofList (files : List (ContainedPath × String)) :
    (ofList files).files = .ofList (files.map fun f => (f.1.path, f.2)) := by
  have hfold (base : BaseCode) : (files.foldl (fun base f => base.insert f.1 f.2) base).files =
      (files.map fun f => (f.1.path, f.2)).foldl (fun m e => m.insert e.1 e.2) base.files := by
    induction files generalizing base with
    | nil => rfl
    | cons f files ih => exact ih _
  exact hfold empty

theorem mem_entries_ofList (hnodup : (files.map (·.1.path.key)).Nodup) {e : Path × String} :
    e ∈ (ofList files).files.entries ↔ ∃ f ∈ files, e = (f.1.path, f.2) := by
  have hkeys : ((files.map fun f => (f.1.path, f.2)).map (·.1.key)).Nodup := by
    rw [List.map_map]
    exact hnodup
  rw [files_ofList, PathMap.mem_entries_ofList hkeys, List.mem_map]
  simp only [eq_comm]

end

theorem content_eq_ok {base : BaseCode} {file : BaseFile} {source : String}
    (h : base.content? ⟨file.path⟩ = some source) : base.content file = .ok source := by
  rw [content, h]

/-- What takes part in the generation stands in the base code under some spelling of its path. -/
theorem exists_mem_of_content_eq_ok {base : BaseCode} {file : BaseFile} {source : String}
    (h : base.content file = .ok source) : ∃ path : Path, (path, source) ∈ base.files.entries ∧
      path.components = Path.components ⟨file.path⟩ := by
  have hfind : base.content? ⟨file.path⟩ = some source := by
    rw [content] at h
    split at h
    · rename_i content hcontent
      rw [hcontent, Except.ok.inj h]
    · cases h
  obtain ⟨e, he, hkey, rfl⟩ := PathMap.find?_eq_some_iff.1 hfind
  exact ⟨e.1, he, Path.key_eq_iff.1 hkey⟩

theorem mem_all (file : BaseFile) : file ∈ BaseFile.all := by
  rcases file with model | aggregate
  · exact List.mem_append_left _ (List.mem_map_of_mem model.mem_all)
  · exact List.mem_append_right _ (List.mem_map_of_mem aggregate.mem_all)

theorem ensureComplete_eq_ok_iff {base : BaseCode} :
    base.ensureComplete = .ok () ↔ ∀ file, ∃ source, base.content file = .ok source := by
  have hall (files : List BaseFile) :
      files.forM (fun file => discard (base.content file)) = .ok () ↔
        ∀ file ∈ files, ∃ source, base.content file = .ok source := by
    induction files with
    | nil => exact iff_of_true rfl (by simp)
    | cons file files ih =>
      change (discard (base.content file) >>= fun _ => files.forM _) = _ ↔ _
      rw [List.forall_mem_cons]
      cases base.content file with
      | error e => exact iff_of_false (fun h => nomatch h) fun h => nomatch h.1
      | ok source => exact ih.trans (and_iff_right ⟨source, rfl⟩).symm
  exact (hall BaseFile.all).trans ⟨fun h file => h file (mem_all file), fun h file _ => h file⟩

/-! ### Base code from sources -/

theorem contained_path (file : BaseFile) : Path.escape? ⟨file.path⟩ = none := by
  have h : ∀ file ∈ BaseFile.all, Path.escape? ⟨file.path⟩ = none := by decide +kernel
  exact h file (mem_all file)

/-- No file that takes part lies in another. -/
theorem components_path_eq_of_prefix {file file' : BaseFile}
    (h : Path.components ⟨file.path⟩ <+: Path.components ⟨file'.path⟩) :
    Path.components ⟨file.path⟩ = Path.components ⟨file'.path⟩ := by
  have hpaths : ∀ file ∈ BaseFile.all, ∀ file' ∈ BaseFile.all,
      Path.components ⟨file.path⟩ <+: Path.components ⟨file'.path⟩ →
        Path.components ⟨file.path⟩ = Path.components ⟨file'.path⟩ := by decide +kernel
  exact hpaths file (mem_all file) file' (mem_all file') h

/-- Where a file that takes part stands, as a contained path. -/
def location (file : BaseFile) : ContainedPath where
  path := ⟨file.path⟩
  contained := contained_path file

/-- No two files that take part stand at one path. -/
theorem nodup_location : (BaseFile.all.map fun file => (location file).path.key).Nodup := by
  decide +kernel

/-- The base code that has only the files that take part in the generation, with the given sources.
-/
def ofSources (source : BaseFile → String) : BaseCode :=
  ofList (BaseFile.all.map fun file => (location file, source file))

section
variable {source : BaseFile → String}

theorem nodup_sources : ((BaseFile.all.map fun file => (location file, source file)).map
    (·.1.path.key)).Nodup := by
  simpa only [List.map_map, Function.comp_def] using nodup_location

theorem mem_entries_ofSources {e : Path × String} :
    e ∈ (ofSources source).files.entries ↔ ∃ file : BaseFile, e = (⟨file.path⟩, source file) := by
  rw [ofSources, mem_entries_ofList nodup_sources]
  constructor
  · rintro ⟨_, hf, rfl⟩
    obtain ⟨file, -, rfl⟩ := List.mem_map.1 hf
    exact ⟨file, rfl⟩
  · rintro ⟨file, rfl⟩
    exact ⟨_, List.mem_map.2 ⟨file, mem_all file, rfl⟩, rfl⟩

theorem content_ofSources (source : BaseFile → String) (file : BaseFile) :
    (ofSources source).content file = .ok (source file) := by
  have hmem : ((⟨file.path⟩, source file) : Path × String) ∈ (ofSources source).files.entries :=
    mem_entries_ofSources.2 ⟨file, rfl⟩
  exact content_eq_ok (PathMap.find?_of_mem hmem rfl)

end

end BaseCode

end Scaffold
