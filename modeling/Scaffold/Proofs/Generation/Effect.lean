import Mathlib.Data.List.Nodup
import Scaffold.Proofs.Generation.Changes
import Scaffold.Proofs.Generation.Run
import Scaffold.Proofs.Store.Memory

/-!
# What a run makes

The store in memory refuses no change of a run, as every file comes behind the directory it lies in.
A run of what can be planned is thus refused only if there is something at its root and it is not
forced (`run_generate_memory`). What it leaves is known place by place (`Memory.HasTree`): the files
of the tree, the last one at a place over those before it, and the directories on the way to them.
-/

namespace Scaffold

/-! ### Trees below a root -/

namespace OutputTree

variable {t : OutputTree} {root q : Path}

/-- The content of the last file of a tree whose place below `root` is that of `q`. -/
def lastAt? (t : OutputTree) (root q : Path) : Option String :=
  (t.files.reverse.find? fun f => (root.join f.1.path).same q).map (·.2)

/-- A file counts where no later one has its place. -/
theorem lastAt?_cons_file (path : ContainedPath) (content : String) (entries : List TreeEntry) :
    lastAt? ⟨.file path content :: entries⟩ root q =
      (lastAt? ⟨entries⟩ root q).or
        (if (root.join path.path).key = q.key then some content else none) := by
  have hfiles : (⟨.file path content :: entries⟩ : OutputTree).files =
      (path, content) :: (⟨entries⟩ : OutputTree).files := rfl
  rw [lastAt?, hfiles, List.reverse_cons, List.find?_append, Option.map_or, lastAt?]
  by_cases h : (root.join path.path).key = q.key <;> simp [Path.same, h]

theorem lastAt?_eq_some (hnodup : (t.files.map fun f => (root.join f.1.path).components).Nodup)
    {f : ContainedPath × String} (hf : f ∈ t.files) :
    t.lastAt? root (root.join f.1.path) = some f.2 := by
  have hsome : (t.files.reverse.find? fun g =>
      (root.join g.1.path).same (root.join f.1.path)).isSome = true := by
    rw [List.find?_isSome]
    exact ⟨f, List.mem_reverse.2 hf, by simp [Path.same]⟩
  obtain ⟨g, hg⟩ := Option.isSome_iff_exists.1 hsome
  have hplace : (root.join g.1.path).components = (root.join f.1.path).components :=
    Path.key_eq_iff.1 (by simpa [Path.same] using List.find?_some hg)
  have heq : g = f := List.inj_on_of_nodup_map hnodup
    (List.mem_reverse.1 (List.mem_of_find?_eq_some hg)) hf hplace
  rw [lastAt?, hg, heq, Option.map_some]

theorem exists_mem_entries_iff {good : TreeEntry → Prop} : (∃ entry ∈ t.entries, good entry) ↔
    (∃ d ∈ t.directories, good (.directory d)) ∨ ∃ f ∈ t.files, good (.file f.1 f.2) := by
  constructor
  · rintro ⟨entry, hentry, h⟩
    cases entry with
    | directory d => exact .inl ⟨d, List.mem_filterMap.2 ⟨_, hentry, rfl⟩, h⟩
    | file path content => exact .inr ⟨(path, content), List.mem_filterMap.2 ⟨_, hentry, rfl⟩, h⟩
  · rintro (⟨d, hd, h⟩ | ⟨f, hf, h⟩)
    · obtain ⟨entry, hentry, hd⟩ := List.mem_filterMap.1 hd
      cases entry with
      | directory d' => cases hd; exact ⟨_, hentry, h⟩
      | file path content => cases hd
    · obtain ⟨entry, hentry, hf⟩ := List.mem_filterMap.1 hf
      cases entry with
      | directory d => cases hf
      | file path content => cases hf; exact ⟨_, hentry, h⟩

end OutputTree

/-- The directory that an entry of a tree needs below `root`. -/
def TreeEntry.directoryBelow (root : Path) : TreeEntry → Path
  | directory d => root.join d.path
  | file path _ => (root.join path.path).parent

namespace Memory

/-- The store with an entry of a tree made below `root`. -/
def withEntry (root : Path) (s : Memory) (entry : TreeEntry) : Memory :=
  let s := s.createDirectory (entry.directoryBelow root)
  match entry with
  | .directory _ => s
  | .file path content => { s with files := s.files.insert (root.join path.path) content }

/-- The store with a tree made below `root`. -/
def withTree (root : Path) (s : Memory) (t : OutputTree) : Memory :=
  t.entries.foldl (withEntry root) (s.createDirectory root)

variable {root q : Path} {s : Memory}

/-! ### Making a tree -/

/-- No change for an entry is refused. -/
theorem run_applyAll_entry (entry : TreeEntry) (s : Memory) :
    (store.applyAll (entry.changes root)).run s = (.ok (), s.withEntry root entry) := by
  cases entry with
  | directory d => rfl
  | file path content =>
    have hparent : (store.applyAll
        ((root.join path.path).parent?.map Change.createDirectory).toList).run s =
          (.ok (), s.createDirectory (root.join path.path).parent) := by
      cases h : (root.join path.path).parent? with
      | none =>
        rw [Path.parent, h]
        rfl
      | some parent =>
        rw [Path.parent, h]
        rfl
    rw [TreeEntry.changes, Store.run_applyAll_append hparent, Store.run_applyAll_cons,
      run_apply_writeFile, if_pos (admits_createDirectory_parent _ _)]
    rfl

theorem run_applyAll_entries (entries : List TreeEntry) (s : Memory) :
    (store.applyAll (entries.flatMap (TreeEntry.changes root))).run s =
      (.ok (), entries.foldl (withEntry root) s) := by
  induction entries generalizing s with
  | nil => rfl
  | cons entry entries ih =>
    rw [List.flatMap_cons, Store.run_applyAll_append (run_applyAll_entry entry s), ih]
    rfl

theorem run_applyAll_changes (t : OutputTree) (s : Memory) :
    (store.applyAll (t.changes root)).run s = (.ok (), s.withTree root t) := by
  rw [OutputTree.changes, Store.run_applyAll_cons, run_apply_createDirectory]
  exact run_applyAll_entries t.entries _

/-! ### What a tree leaves -/

theorem directories_withEntry (entry : TreeEntry) (s : Memory) :
    (s.withEntry root entry).directories =
      (s.createDirectory (entry.directoryBelow root)).directories := by
  cases entry <;> simp only [withEntry]

theorem find?_foldl_withEntry (entries : List TreeEntry) (s : Memory) :
    (entries.foldl (withEntry root) s).files.find? q =
      (OutputTree.lastAt? ⟨entries⟩ root q).or (s.files.find? q) := by
  induction entries generalizing s with
  | nil => rfl
  | cons entry entries ih =>
    rw [List.foldl_cons, ih]
    cases entry with
    | directory d => rfl
    | file path content =>
      rw [OutputTree.lastAt?_cons_file, Option.or_assoc]
      congr 1
      rw [withEntry, PathMap.find?_insert]
      split <;> rfl

/-- A place has the last file of the tree that comes to stand there, or what it had. -/
theorem find?_withTree (t : OutputTree) (s : Memory) :
    (s.withTree root t).files.find? q = (t.lastAt? root q).or (s.files.find? q) :=
  find?_foldl_withEntry t.entries _

theorem contains_foldl_withEntry (entries : List TreeEntry) (s : Memory) :
    (entries.foldl (withEntry root) s).directories.contains q = true ↔
      (q.components ≠ [] ∧
        ∃ entry ∈ entries, q.components <+: (entry.directoryBelow root).components) ∨
      s.directories.contains q = true := by
  induction entries generalizing s with
  | nil => simp
  | cons entry entries ih =>
    rw [List.foldl_cons, ih, directories_withEntry, contains_createDirectory]
    simp only [List.mem_cons, exists_eq_or_imp]
    rw [and_or_left, or_left_comm, or_assoc]

/-- The directories of the tree are there, with those on the way to them and to the files, and no
others are new. -/
theorem contains_withTree (t : OutputTree) (s : Memory) :
    (s.withTree root t).directories.contains q = true ↔
      s.directories.contains q = true ∨ q.components ≠ [] ∧
        (q.components <+: root.components ∨
          (∃ d ∈ t.directories, q.components <+: (root.join d.path).components) ∨
          ∃ f ∈ t.files, q.components <+: (root.join f.1.path).parent.components) := by
  rw [withTree, contains_foldl_withEntry, contains_createDirectory,
    OutputTree.exists_mem_entries_iff, ← or_assoc, ← and_or_left, or_comm]
  exact Iff.or Iff.rfl (and_congr_right' or_comm)

/-- What `after` holds is what `before` held with a tree made over it below `root`. -/
structure HasTree (before : Memory) (root : Path) (t : OutputTree) (after : Memory) : Prop where
  /-- A place has the last file of the tree that comes to stand there, or what it had. -/
  files : ∀ q, after.files.find? q = (t.lastAt? root q).or (before.files.find? q)
  /-- The new directories are those that the root, the directories of the tree and the files of the
  tree need. -/
  directories : ∀ q, after.directories.contains q = true ↔
    before.directories.contains q = true ∨ q.components ≠ [] ∧
      (q.components <+: root.components ∨
        (∃ d ∈ t.directories, q.components <+: (root.join d.path).components) ∨
        ∃ f ∈ t.files, q.components <+: (root.join f.1.path).parent.components)

theorem hasTree_withTree (t : OutputTree) (s : Memory) : s.HasTree root t (s.withTree root t) where
  files _ := find?_withTree t s
  directories _ := contains_withTree t s

end Memory

/-! ### Runs -/

section
variable {loaded : Except Error BaseCode} {p : Project} {root : Path} {options : GenerateOptions}

theorem run_generate_memory (s : Memory) : (generate Memory.store loaded p root options).run s =
    match plan loaded p options.policy with
    | .error e => (.error e, s)
    | .ok a =>
      if s.has root && !options.force then (.error (.run (.projectExists root)), s)
      else (.ok (a.report p root), s.withTree root a.tree) := by
  have hhas : (Memory.store.has root).run s = (s.has root, s) := rfl
  rw [run_generate]
  cases plan loaded p options.policy with
  | error e => rfl
  | ok a =>
    simp only [Store.run_write, hhas, Memory.run_applyAll_changes]
    cases s.has root && !options.force <;> rfl

theorem run_generate_memory_of_plan (options : GenerateOptions) {a : Application}
    (ha : plan loaded p options.policy = .ok a) {s : Memory}
    (hfree : (s.has root && !options.force) = false) :
    (generate Memory.store loaded p root options).run s =
      (.ok (a.report p root), s.withTree root a.tree) := by
  rw [run_generate_memory, ha]
  simp only [hfree, Bool.false_eq_true, if_false]

end

/-- A run against the store in memory succeeds if the application can be planned, unless there is
something at the root and the run is not forced, and then it makes the tree that was planned. -/
theorem generate_memory (s : Memory) (loaded : Except Error BaseCode) (p : Project) (root : Path)
    (options : GenerateOptions) :
    ((∃ report s', (generate Memory.store loaded p root options).run s = (.ok report, s')) ↔
      (∃ a, plan loaded p options.policy = .ok a) ∧
        (s.has root = false ∨ options.force = true)) ∧
    ∀ a report s', plan loaded p options.policy = .ok a →
      (generate Memory.store loaded p root options).run s = (.ok report, s') →
      s.HasTree root a.tree s' ∧ report.files = a.tree.files.length ∧
        report.unresolvedParents = a.unresolvedParents ∧
        report.withoutInput = a.withoutInput := by
  rw [run_generate_memory]
  cases plan loaded p options.policy with
  | error e =>
    refine ⟨iff_of_false ?_ ?_, ?_⟩
    · rintro ⟨_, _, ⟨⟩⟩
    · rintro ⟨⟨_, ⟨⟩⟩, -⟩
    · rintro _ _ _ ⟨⟩
  | ok a =>
    have hfree : s.has root = false ∨ options.force = true ↔
        ¬ (s.has root && !options.force) = true := by
      cases s.has root <;> simp
    by_cases hrefused : (s.has root && !options.force) = true
    · simp only [if_pos hrefused]
      refine ⟨iff_of_false ?_ ?_, ?_⟩
      · rintro ⟨_, _, ⟨⟩⟩
      · rintro ⟨-, h⟩
        exact hfree.1 h hrefused
      · rintro _ _ _ - ⟨⟩
    · simp only [if_neg hrefused]
      refine ⟨iff_of_true ⟨_, _, rfl⟩ ⟨⟨a, rfl⟩, hfree.2 hrefused⟩, ?_⟩
      rintro _ _ _ ⟨⟩ ⟨⟩
      exact ⟨Memory.hasTree_withTree a.tree s, rfl, rfl, rfl⟩

/-- A forced run over a page and beside a file of one's own. -/
theorem generate_memory_of_forced :
    let base : BaseCode := .ofSources fun
      | .aggregate .index => "<title>appName</title>"
      | _ => ""
    let before : Memory :=
      ⟨.ofList [(⟨"out/index.html"⟩, "old"), (⟨"out/notes.txt"⟩, "mine")], .ofList [(⟨"out"⟩, ())]⟩
    ∃ report s', (generate Memory.store (.ok base) ⟨"Garage", none, []⟩ ⟨"out"⟩
        ⟨.permissive, true⟩).run before = (.ok report, s') ∧
      s'.files.find? ⟨"out/index.html"⟩ = some "<title>Garage</title>" ∧
      s'.files.find? ⟨"out/notes.txt"⟩ = some "mine" ∧ report.files = 3 := by
  intro base before
  have hplan : (plan (.ok base) ⟨"Garage", none, []⟩ .permissive).toOption.map (fun a =>
      (a.tree.lastAt? ⟨"out"⟩ ⟨"out/index.html"⟩, a.tree.lastAt? ⟨"out"⟩ ⟨"out/notes.txt"⟩,
        a.tree.files.length)) = some (some "<title>Garage</title>", none, 3) := by
    decide +kernel
  obtain ⟨hok, hmade⟩ :=
    generate_memory before (.ok base) ⟨"Garage", none, []⟩ ⟨"out"⟩ ⟨.permissive, true⟩
  cases ha : plan (.ok base) ⟨"Garage", none, []⟩ .permissive with
  | error e =>
    rw [ha] at hplan
    cases hplan
  | ok a =>
    rw [ha] at hplan
    have heq := Option.some.inj hplan
    simp only [Prod.mk.injEq] at heq
    obtain ⟨hpage, hnotes, hcount⟩ := heq
    obtain ⟨report, s', hrun⟩ := hok.2 ⟨⟨a, ha⟩, .inr rfl⟩
    obtain ⟨htree, hfiles, -⟩ := hmade a report s' ha hrun
    refine ⟨report, s', hrun, ?_, ?_, hfiles.trans hcount⟩
    · rw [htree.files, hpage]
      rfl
    · rw [htree.files, hnotes]
      decide +kernel

end Scaffold
