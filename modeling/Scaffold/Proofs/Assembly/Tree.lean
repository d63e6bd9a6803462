import Scaffold.Assembly.Application
import Scaffold.Proofs.Path.Components
import Scaffold.Proofs.Path.Map
import Scaffold.Proofs.Project.Lookup

/-!
# Well-formed output trees

An output tree is well formed if it can be written entry by entry: directories come before what lies
in them, no two entries have one path, and nothing lies in a file. The tree of a list of files is
well formed exactly if it passes its check (`validate_treeOf_iff_apart`, `wellFormed_treeOf`),
though the check only looks for repeated paths: a file that another one lies in repeats a directory.
-/

namespace Scaffold

/-- Of two places that stand apart, neither lies in the other. -/
def Path.Apart (a b : List Path.Component) : Prop := ¬ a <+: b ∧ ¬ b <+: a

/-- Places stand apart from each other if they differ and none lies in another. -/
theorem Path.pairwise_apart_iff {places : List (List Path.Component)} :
    places.Pairwise Apart ↔ places.Nodup ∧ ∀ a ∈ places, ∀ b ∈ places, a <+: b → a = b := by
  constructor
  · intro h
    constructor
    · refine h.imp ?_
      rintro a b hab rfl
      exact hab.1 List.prefix_rfl
    · intro a ha b hb
      exact List.Pairwise.forall_of_forall_of_flip (R := fun a b => a <+: b → a = b)
        (fun _ _ _ => rfl) (h.imp fun hab hp => absurd hp hab.1)
        (h.imp fun hab hp => absurd hp hab.2) ha hb
  · rintro ⟨hnodup, hleaf⟩
    refine hnodup.imp_of_mem fun {a b} ha hb hne => ?_
    exact ⟨fun hp => hne (hleaf a ha b hb hp), fun hp => hne (hleaf b hb a ha hp).symm⟩

/-- What the path of an entry means. -/
def TreeEntry.components (entry : TreeEntry) : List Path.Component := entry.path.path.components

namespace OutputTree

/-- A tree that can be written entry by entry. -/
structure WellFormed (t : OutputTree) : Prop where
  /-- No two entries have one path. -/
  distinct : (t.entries.map TreeEntry.components).Nodup
  /-- The directories are those that files lie in. -/
  directories : ∀ cs, cs ∈ t.directories.map (·.path.components) ↔
    cs ≠ [] ∧ ∃ f ∈ t.files, cs <+: f.1.path.components ∧ cs ≠ f.1.path.components
  /-- All directories come before all files. -/
  directoriesFirst :
    t.entries = t.directories.map .directory ++ t.files.map fun f => .file f.1 f.2
  /-- What an entry lies in comes before it. -/
  ancestorsBefore : ∀ before entry behind, t.entries = before ++ entry :: behind →
    ∀ cs ≠ [], cs <+: entry.components → cs ≠ entry.components →
      cs ∈ before.map TreeEntry.components
  /-- Nothing lies in a file. -/
  filesAreLeaves : ∀ f ∈ t.files, ∀ entry ∈ t.entries,
    f.1.path.components <+: entry.components → f.1.path.components = entry.components

/-! ### The check of a tree -/

theorem firstRepeated?_eq_none_iff {seen : List (List (List Nat))} {paths : List ContainedPath} :
    firstRepeated? seen paths = none ↔
      (∀ p ∈ paths, p.path.key ∉ seen) ∧ (paths.map (·.path.key)).Nodup := by
  induction paths generalizing seen with
  | nil => simp [firstRepeated?]
  | cons p paths ih =>
    by_cases h : p.path.key ∈ seen
    · simp [firstRepeated?, h]
    · simp only [firstRepeated?, List.contains_iff_mem, h, if_false, ih, List.mem_cons, not_or,
        List.map_cons, List.nodup_cons, forall_eq_or_imp, not_false_eq_true, true_and,
        List.mem_map, not_exists, not_and]
      constructor
      · rintro ⟨hseen, hnodup⟩
        exact ⟨fun q hq => (hseen q hq).2, fun q hq => (hseen q hq).1, hnodup⟩
      · rintro ⟨hseen, hne, hnodup⟩
        exact ⟨fun q hq => ⟨hne q hq, hseen q hq⟩, hnodup⟩

theorem mem_of_firstRepeated?_eq_some {seen : List (List (List Nat))} {paths : List ContainedPath}
    {p : ContainedPath} (h : firstRepeated? seen paths = some p) : p ∈ paths := by
  induction paths generalizing seen with
  | nil => cases h
  | cons q paths ih =>
    rw [firstRepeated?] at h
    split at h
    · exact List.mem_cons.2 (.inl (Option.some.inj h).symm)
    · exact List.mem_cons_of_mem q (ih h)

theorem nodup_key_iff {paths : List ContainedPath} :
    (paths.map (·.path.key)).Nodup ↔ (paths.map (·.path.components)).Nodup := by
  simp only [List.Nodup, List.pairwise_map, ne_eq, Path.key_eq_iff]

theorem validate_eq_ok_iff {t : OutputTree} :
    t.validate = .ok () ↔ t.entries ≠ [] ∧ (t.entries.map TreeEntry.components).Nodup := by
  have hmap : t.entries.map TreeEntry.components =
      (t.entries.map TreeEntry.path).map (·.path.components) := by
    rw [List.map_map]
    rfl
  have hnone : firstRepeated? [] (t.entries.map TreeEntry.path) = none ↔
      (t.entries.map TreeEntry.components).Nodup := by
    rw [firstRepeated?_eq_none_iff, nodup_key_iff, ← hmap]
    simp
  rw [← hnone, validate]
  by_cases hempty : t.entries = []
  · simp [hempty]
  · cases h : firstRepeated? [] (t.entries.map TreeEntry.path) <;> simp [hempty]

theorem sublist_components_files (t : OutputTree) :
    (t.files.map (·.1.path.components)).Sublist (t.entries.map TreeEntry.components) := by
  obtain ⟨entries⟩ := t
  induction entries with
  | nil => exact .slnil
  | cons entry entries ih =>
    cases entry with
    | directory path => exact ih.cons _
    | file path content => exact ih.cons_cons _

/-- In a tree that passes its check no two files have one path. -/
theorem nodup_components_files {t : OutputTree} (h : t.validate = .ok ()) :
    (t.files.map (·.1.path.components)).Nodup :=
  (validate_eq_ok_iff.1 h).2.sublist t.sublist_components_files

theorem nodup_key_files {t : OutputTree} (h : t.validate = .ok ()) :
    (t.files.map fun f => f.1.path.key).Nodup := by
  have hcomponents : ((t.files.map (·.1)).map (·.path.components)).Nodup := by
    rw [List.map_map]
    exact nodup_components_files h
  have hkeys := nodup_key_iff.2 hcomponents
  rwa [List.map_map] at hkeys

/-- In a tree that passes its check every file is found under each spelling of its path. -/
theorem content?_eq_some_iff {t : OutputTree} (h : t.validate = .ok ()) {path : Path}
    {content : String} : t.content? path = some content ↔
      ∃ f ∈ t.files, f.1.path.key = path.key ∧ f.2 = content := by
  have hfind (f : ContainedPath × String) :
      (t.files.find? fun f => f.1.path.key == path.key) = some f ↔
        f ∈ t.files ∧ f.1.path.key = path.key := find?_key_eq_some_iff (nodup_key_files h)
  simp only [content?, Path.same, Option.map_eq_some_iff, hfind, and_assoc]

end OutputTree

/-! ### The tree of a list of files -/

namespace Application

variable {files : List (ContainedPath × String)}

/-- The fold of `directoriesOf`: its entries are some of the directories under their own paths, its
keys are those of all directories. -/
theorem foldl_insertNew (ds : List ContainedPath) (m : PathMap ContainedPath) :
    let r := ds.foldl (fun found d => found.insertNew d.path d) m
    (∀ e ∈ r.entries, e ∈ m.entries ∨ ∃ d ∈ ds, e = (d.path, d)) ∧
      ∀ k, k ∈ r.keys ↔ k ∈ m.keys ∨ ∃ d ∈ ds, d.path.key = k := by
  induction ds generalizing m with
  | nil => simp
  | cons d ds ih =>
    obtain ⟨hentries, hkeys⟩ := ih (m.insertNew d.path d)
    refine ⟨fun e he => ?_, fun k => ?_⟩
    · rcases hentries e he with he | ⟨d', hd', rfl⟩
      · rcases PathMap.mem_entries_insertNew he with rfl | he
        · exact .inr ⟨d, by simp, rfl⟩
        · exact .inl he
      · exact .inr ⟨d', by simp [hd'], rfl⟩
    · rw [List.foldl_cons, hkeys, PathMap.mem_keys_insertNew]
      simp only [List.mem_cons, exists_eq_or_imp]
      rw [eq_comm (a := k), or_assoc, or_left_comm]

theorem pairwise_directoriesOf (files : List (ContainedPath × String)) :
    (directoriesOf files).Pairwise fun d d' => d.path.key < d'.path.key := by
  have hentries := (foldl_insertNew (files.flatMap fun f => f.1.directories) .empty).1
  simp only [directoriesOf, List.pairwise_map]
  refine List.Pairwise.imp_of_mem (fun {e e'} he he' hlt => ?_) (PathMap.sorted _)
  rcases hentries e he with h | ⟨d, -, rfl⟩
  · simp [PathMap.empty] at h
  · rcases hentries e' he' with h | ⟨d', -, rfl⟩
    · simp [PathMap.empty] at h
    · exact hlt

theorem mem_components_directoriesOf (files : List (ContainedPath × String))
    (cs : List Path.Component) :
    cs ∈ (directoriesOf files).map (·.path.components) ↔
      cs ≠ [] ∧ ∃ f ∈ files, cs <+: f.1.path.components ∧ cs ≠ f.1.path.components := by
  obtain ⟨hentries, hkeys⟩ := foldl_insertNew (files.flatMap fun f => f.1.directories) .empty
  have hmem : cs ∈ (directoriesOf files).map (·.path.components) ↔
      ∃ f ∈ files, cs ∈ f.1.directories.map (·.path.components) := by
    constructor
    · intro h
      obtain ⟨d, hd, rfl⟩ := List.mem_map.1 h
      obtain ⟨e, he, rfl⟩ := List.mem_map.1 hd
      rcases hentries e he with h | ⟨d, hmem, rfl⟩
      · simp [PathMap.empty] at h
      · obtain ⟨f, hf, hfd⟩ := List.mem_flatMap.1 hmem
        exact ⟨f, hf, List.mem_map_of_mem hfd⟩
    · rintro ⟨f, hf, h⟩
      obtain ⟨d, hd, rfl⟩ := List.mem_map.1 h
      have hkey := (hkeys d.path.key).2 (.inr ⟨d, List.mem_flatMap.2 ⟨f, hf, hd⟩, rfl⟩)
      obtain ⟨e, he, heq⟩ := PathMap.mem_keys.1 hkey
      refine List.mem_map.2 ⟨e.2, List.mem_map_of_mem he, ?_⟩
      rcases hentries e he with h | ⟨d', -, rfl⟩
      · simp [PathMap.empty] at h
      · exact Path.key_eq_iff.1 heq
  simp only [hmem, ContainedPath.mem_components_directories]
  constructor
  · rintro ⟨f, hf, hne, hp, hne'⟩
    exact ⟨hne, f, hf, hp, hne'⟩
  · rintro ⟨hne, f, hf, hp, hne'⟩
    exact ⟨f, hf, hne, hp, hne'⟩

theorem nodup_components_directoriesOf (files : List (ContainedPath × String)) :
    ((directoriesOf files).map (·.path.components)).Nodup := by
  rw [← OutputTree.nodup_key_iff, List.Nodup, List.pairwise_map]
  refine (pairwise_directoriesOf files).imp fun {d d'} hlt heq => ?_
  rw [heq] at hlt
  exact List.lt_irrefl _ hlt

@[simp] theorem files_treeOf (files : List (ContainedPath × String)) :
    (treeOf files).files = files := by
  simp [treeOf, OutputTree.files, List.filterMap_map]

@[simp] theorem directories_treeOf (files : List (ContainedPath × String)) :
    (treeOf files).directories = directoriesOf files := by
  simp [treeOf, OutputTree.directories, List.filterMap_map]

theorem components_treeOf (files : List (ContainedPath × String)) :
    (treeOf files).entries.map TreeEntry.components =
      (directoriesOf files).map (·.path.components) ++ files.map (·.1.path.components) := by
  simp [treeOf, Function.comp_def, TreeEntry.components, TreeEntry.path]

theorem entries_treeOf_ne_nil_iff : (treeOf files).entries ≠ [] ↔ files ≠ [] := by
  constructor
  · rintro h rfl
    exact h rfl
  · intro h hnil
    simp [treeOf, h] at hnil

/-- Files that stand apart from each other make a tree that passes its check. -/
theorem validate_treeOf_of_pairwise (hfiles : files ≠ [])
    (hapart : (files.map (·.1.path.components)).Pairwise Path.Apart) :
    (treeOf files).validate = .ok () := by
  obtain ⟨hnodup, hleaf⟩ := Path.pairwise_apart_iff.1 hapart
  rw [OutputTree.validate_eq_ok_iff, components_treeOf, List.nodup_append, entries_treeOf_ne_nil_iff]
  refine ⟨hfiles, nodup_components_directoriesOf files, hnodup, fun cs hcs ds hds heq => ?_⟩
  obtain ⟨-, g, hg, hp, hne⟩ := (mem_components_directoriesOf files cs).1 hcs
  exact hne (hleaf cs (heq ▸ hds) _ (List.mem_map_of_mem hg) hp)

/-- Files make a tree that passes its check exactly if there is one and they stand apart from each
other. -/
theorem validate_treeOf_iff_apart (hne : ∀ f ∈ files, f.1.path.components ≠ []) :
    (treeOf files).validate = .ok () ↔
      files ≠ [] ∧ (files.map (·.1.path.components)).Pairwise Path.Apart := by
  constructor
  · intro hvalid
    obtain ⟨hentries, hnodup⟩ := OutputTree.validate_eq_ok_iff.1 hvalid
    rw [components_treeOf, List.nodup_append] at hnodup
    refine ⟨entries_treeOf_ne_nil_iff.1 hentries,
      Path.pairwise_apart_iff.2 ⟨hnodup.2.1, fun cs hcs ds hds hp => ?_⟩⟩
    obtain ⟨f, hf, rfl⟩ := List.mem_map.1 hcs
    obtain ⟨g, hg, rfl⟩ := List.mem_map.1 hds
    -- a file that another one lies in would be one of the directories
    refine Classical.byContradiction fun hfg => ?_
    have hd := (mem_components_directoriesOf files f.1.path.components).2
      ⟨hne f hf, g, hg, hp, hfg⟩
    exact hnodup.2.2 _ hd _ hcs rfl
  · rintro ⟨hfiles, hapart⟩
    exact validate_treeOf_of_pairwise hfiles hapart

theorem content?_treeOf_eq_some_iff (h : (treeOf files).validate = .ok ()) {path : Path}
    {content : String} : (treeOf files).content? path = some content ↔
      ∃ f ∈ files, f.1.path.key = path.key ∧ f.2 = content := by
  rw [OutputTree.content?_eq_some_iff h, files_treeOf]

/-- Every entry is a file or lies above one. -/
theorem exists_file_of_mem_treeOf {entry : TreeEntry} (h : entry ∈ (treeOf files).entries) :
    ∃ f ∈ files, entry.components <+: f.1.path.components := by
  rcases List.mem_append.1 h with h | h
  · obtain ⟨d, hd, rfl⟩ := List.mem_map.1 h
    obtain ⟨-, f, hf, hp, -⟩ :=
      (mem_components_directoriesOf files _).1 (List.mem_map_of_mem hd)
    exact ⟨f, hf, hp⟩
  · obtain ⟨f, hf, rfl⟩ := List.mem_map.1 h
    exact ⟨f, hf, List.prefix_rfl⟩

/-- Whatever an entry lies in is a directory of the tree. -/
theorem exists_directory_of_prefix {entry : TreeEntry} (h : entry ∈ (treeOf files).entries)
    {cs : List Path.Component} (hcs : cs ≠ []) (hp : cs <+: entry.components)
    (hne : cs ≠ entry.components) : ∃ d ∈ directoriesOf files, d.path.components = cs := by
  obtain ⟨f, hf, hpf⟩ := exists_file_of_mem_treeOf h
  have hproper : cs ≠ f.1.path.components := by
    rintro rfl
    exact hne (hp.eq_of_length_le hpf.length_le)
  exact List.mem_map.1 <|
    (mem_components_directoriesOf files cs).2 ⟨hcs, f, hf, hp.trans hpf, hproper⟩

/-- What comes before a directory has a smaller key. -/
theorem pairwise_treeOf (files : List (ContainedPath × String)) :
    (treeOf files).entries.Pairwise fun a b =>
      ∀ d, b = .directory d → a.path.path.key < d.path.key := by
  refine List.pairwise_append.2 ⟨?_, ?_, ?_⟩
  · refine List.pairwise_map.2 ((pairwise_directoriesOf files).imp fun {d d'} hlt d'' heq => ?_)
    cases heq
    exact hlt
  · refine List.pairwise_map.2 (List.pairwise_of_forall fun f g d heq => ?_)
    cases heq
  · intro a _ b hb d heq
    obtain ⟨f, -, rfl⟩ := List.mem_map.1 hb
    cases heq

/-- A tree that passes its check is well formed. -/
theorem wellFormed_treeOf (hne : ∀ f ∈ files, f.1.path.components ≠ [])
    (h : (treeOf files).validate = .ok ()) : (treeOf files).WellFormed where
  distinct := (OutputTree.validate_eq_ok_iff.1 h).2
  directories := by
    intro cs
    rw [directories_treeOf, files_treeOf]
    exact mem_components_directoriesOf files cs
  directoriesFirst := by
    rw [directories_treeOf, files_treeOf]
    rfl
  ancestorsBefore := by
    intro before entry behind hentries cs hcs hp hne'
    have hentry : entry ∈ (treeOf files).entries := by simp [hentries]
    obtain ⟨d, hd, rfl⟩ := exists_directory_of_prefix hentry hcs hp hne'
    have hmem : .directory d ∈ before ++ entry :: behind := by
      rw [← hentries]
      exact List.mem_append_left _ (List.mem_map_of_mem hd)
    have hsorted := hentries ▸ pairwise_treeOf files
    obtain ⟨-, hsorted, -⟩ := List.pairwise_append.1 hsorted
    -- were the directory behind the entry, its key would be larger than that of what lies in it
    rcases List.mem_append.1 hmem with hmem | hmem
    · exact List.mem_map.2 ⟨_, hmem, rfl⟩
    · rcases List.mem_cons.1 hmem with rfl | hmem
      · exact absurd rfl hne'
      · have hlt := (List.pairwise_cons.1 hsorted).1 _ hmem d rfl
        have hlt' : d.path.key < entry.path.path.key := Path.key_lt_of_prefix hp hne'
        exact absurd hlt' (List.lt_asymm hlt)
  filesAreLeaves := by
    rw [files_treeOf]
    obtain ⟨-, hapart⟩ := (validate_treeOf_iff_apart hne).1 h
    intro f hf entry hentry hp
    obtain ⟨g, hg, hpg⟩ := exists_file_of_mem_treeOf hentry
    have heq := (Path.pairwise_apart_iff.1 hapart).2 _ (List.mem_map_of_mem hf) _
      (List.mem_map_of_mem hg) (hp.trans hpg)
    exact hp.eq_of_length_le (heq ▸ hpg.length_le)

end Application

end Scaffold
