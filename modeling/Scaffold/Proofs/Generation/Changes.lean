import Scaffold.Proofs.Assembly.Guards
import Scaffold.Proofs.Generation.Policy
import Scaffold.Proofs.Path.Join

/-!
# The changes of a run

Where the changes stand that write an application below a root. What is made in a directory or
written to a file lies in the root, and the directory of a file does so where the file has a name
behind the root (`OutputTree.liesIn_of_mem_changes`). Without that it may be one that the root lies
in (`OutputTree.isAround_of_mem_changes`).
-/

namespace Scaffold

open Scaffold.Path (Component)

/-! ### Places in a root -/

namespace Path

/-- A path that goes on from `root` without a step up and without beginning anew. -/
def LiesIn (p root : Path) : Prop :=
  ∃ more, p.components = root.components ++ more ∧ Component.up ∉ more ∧ Component.root ∉ more

theorem LiesIn.isPrefix {p root : Path} (h : p.LiesIn root) : root.components <+: p.components := by
  obtain ⟨more, hmore, -⟩ := h
  exact ⟨more, hmore.symm⟩

theorem LiesIn.refl (root : Path) : root.LiesIn root := ⟨[], by simp⟩

end Path

namespace ContainedPath

variable (root : Path) (p : ContainedPath)

theorem isAbsolute_eq_false : p.path.isAbsolute = false := by
  simpa [Path.isAbsolute] using (Path.escape?_eq_none_iff.1 p.contained).1

/-- What stands behind the root in the path of something below it. -/
theorem exists_components_join :
    ∃ more, (root.join p.path).components = root.components ++ more ∧
      more ⊆ p.path.components ∧ ∀ s, .name s ∈ p.path.components → .name s ∈ more := by
  rw [Path.components_join p.isAbsolute_eq_false]
  split
  · rename_i hroot
    exact ⟨p.path.components, by rw [hroot, List.nil_append], fun _ h => h, fun _ h => h⟩
  · exact ⟨_, rfl, fun _ h => (List.mem_filter.1 h).1, fun s h => by simpa using h⟩

theorem liesIn_join : (root.join p.path).LiesIn root := by
  obtain ⟨more, hmore, hsub, -⟩ := p.exists_components_join root
  obtain ⟨hroot, hup⟩ := Path.escape?_eq_none_iff_not_mem.1 p.contained
  exact ⟨more, hmore, fun h => hup (hsub h), fun h => hroot (hsub h)⟩

/-- The directory of something that has a name behind the root. -/
theorem liesIn_parent_join {s : String} (hs : .name s ∈ p.path.components) :
    (root.join p.path).parent.LiesIn root := by
  obtain ⟨more, hmore, hsub, hname⟩ := p.exists_components_join root
  obtain ⟨hroot, hup⟩ := Path.escape?_eq_none_iff_not_mem.1 p.contained
  have hne : more ≠ [] := List.ne_nil_of_mem (hname s hs)
  have hlast : more.dropLast ⊆ p.path.components := fun c hc => hsub (List.dropLast_subset _ hc)
  refine ⟨more.dropLast, ?_, fun h => hup (hlast h), fun h => hroot (hlast h)⟩
  rw [Path.components_parent, hmore, List.dropLast_append_of_ne_nil hne]

end ContainedPath

/-! ### Changes of a tree -/

namespace OutputTree

variable {t : OutputTree} {root : Path} {c : Change}

/-- A change makes the root or a directory of the tree, or it makes the directory of a file or
writes it. -/
theorem cases_of_mem_changes (h : c ∈ t.changes root) :
    c = .createDirectory root ∨ (∃ d ∈ t.directories, c = .createDirectory (root.join d.path)) ∨
      ∃ f ∈ t.files, c = .createDirectory (root.join f.1.path).parent ∨
        c = .writeFile (root.join f.1.path) f.2 := by
  rcases List.mem_cons.1 h with rfl | h
  · exact .inl rfl
  · obtain ⟨entry, hentry, hc⟩ := List.mem_flatMap.1 h
    cases entry with
    | directory d =>
      refine .inr (.inl ⟨d, List.mem_filterMap.2 ⟨_, hentry, rfl⟩, ?_⟩)
      exact List.mem_singleton.1 hc
    | file path content =>
      refine .inr (.inr ⟨(path, content), List.mem_filterMap.2 ⟨_, hentry, rfl⟩, ?_⟩)
      rcases List.mem_append.1 hc with hc | hc
      · left
        obtain ⟨q, hq, rfl⟩ := Option.map_eq_some_iff.1 (Option.mem_toList.1 hc)
        rw [Path.parent, hq, Option.getD_some]
      · exact .inr (List.mem_singleton.1 hc)

theorem writeFile_mem_changes {f : ContainedPath × String} (hf : f ∈ t.files) (root : Path) :
    .writeFile (root.join f.1.path) f.2 ∈ t.changes root := by
  obtain ⟨entry, hentry, hf⟩ := List.mem_filterMap.1 hf
  refine List.mem_cons_of_mem _ (List.mem_flatMap.2 ⟨entry, hentry, ?_⟩)
  cases entry with
  | directory d => cases hf
  | file path content =>
    cases hf
    exact List.mem_append_right _ (List.mem_singleton.2 rfl)

end OutputTree

/-- A change that makes something in the root. -/
def Change.LiesIn (root : Path) : Change → Prop
  | createDirectory p | writeFile p _ => p.LiesIn root
  | removeDirectory _ => False

/-- A change that makes something in the root, or a directory that the root lies in. -/
def Change.IsAround (root : Path) : Change → Prop
  | createDirectory p => p.components <+: root.components ∨ root.components <+: p.components
  | writeFile p _ => root.components <+: p.components
  | removeDirectory _ => False

namespace OutputTree

variable {t : OutputTree} {root : Path} {c : Change}

theorem liesIn_of_mem_changes (hfiles : ∀ f ∈ t.files, ∃ s, .name s ∈ f.1.path.components)
    (h : c ∈ t.changes root) : c.LiesIn root := by
  rcases cases_of_mem_changes h with rfl | ⟨d, -, rfl⟩ | ⟨f, hf, rfl | rfl⟩
  · exact .refl root
  · exact d.liesIn_join root
  · obtain ⟨s, hs⟩ := hfiles f hf
    exact f.1.liesIn_parent_join root hs
  · exact f.1.liesIn_join root

theorem isAround_of_mem_changes (h : c ∈ t.changes root) : c.IsAround root := by
  rcases cases_of_mem_changes h with rfl | ⟨d, -, rfl⟩ | ⟨f, -, rfl | rfl⟩
  · exact .inl List.prefix_rfl
  · exact .inr (d.liesIn_join root).isPrefix
  · -- the root is the file's place or lies above it
    have hprefix := (f.1.liesIn_join root).isPrefix
    by_cases heq : root.components = (root.join f.1.path).components
    · refine .inl ?_
      rw [Path.components_parent, ← heq]
      exact List.dropLast_prefix _
    · refine .inr ?_
      rw [Path.components_parent]
      exact Path.prefix_dropLast_of_ne hprefix heq
  · exact (f.1.liesIn_join root).isPrefix

end OutputTree

/-! ### Plans -/

theorem of_plan_eq_ok {loaded : Except Error BaseCode} {p : Project} {policy : RelationPolicy}
    {a : Application} (h : plan loaded p policy = .ok a) :
    ∃ base, loaded = .ok base ∧ Application.assemble p policy base = .ok a := by
  simp only [plan, bind_eq_ok_iff] at h
  obtain ⟨base, hbase, h⟩ := h
  refine ⟨base, hbase, (mapError_eq_ok_iff (f := Error.project)).1 ?_⟩
  split at h
  · split at h
    · cases h
    · exact h
  · exact h

/-- What holds of the paths of the base code and of those of the entities' files holds of the paths
of all files that are planned. -/
theorem forall_mem_files_of_plan_eq_ok (good : Path → Prop) {loaded : Except Error BaseCode}
    {p : Project} {policy : RelationPolicy} {a : Application}
    (hbase : ∀ base, loaded = .ok base → ∀ f ∈ base.files.entries, good f.1)
    (hlocation : ∀ e model, good ⟨Model.location e model⟩) (h : plan loaded p policy = .ok a) :
    ∀ f ∈ a.tree.files, good f.1.path := by
  obtain ⟨base, hloaded, hassemble⟩ := of_plan_eq_ok h
  obtain ⟨-, shared, modules, hshared, hmodules, -, rfl⟩ :=
    Application.assemble_eq_ok_iff.1 hassemble
  rw [Application.files_treeOf]
  exact Application.forall_mem_files good
    (fun f hf => hbase base hloaded _ (BaseCode.mem_sharedFiles.1 hf).1) hlocation
    (Application.texts_files hshared hmodules)

/-- No two files are planned at one path. -/
theorem nodup_files_of_plan_eq_ok {loaded : Except Error BaseCode} {p : Project}
    {policy : RelationPolicy} {a : Application} (h : plan loaded p policy = .ok a) :
    (a.tree.files.map (·.1.path.components)).Nodup := by
  obtain ⟨base, -, hassemble⟩ := of_plan_eq_ok h
  obtain ⟨-, shared, modules, -, -, hvalid, rfl⟩ := Application.assemble_eq_ok_iff.1 hassemble
  exact OutputTree.nodup_components_files hvalid

/-- A shared file that takes no names and gathers no blocks is planned as it is in the base code. -/
theorem mem_files_of_plan_eq_ok {base : BaseCode} {p : Project} {policy : RelationPolicy}
    {a : Application} (h : plan (.ok base) p policy = .ok a) {f : ContainedPath × String}
    (hf : f ∈ base.sharedFiles) (hnames : f.1.takesAppName = false)
    (hblocks : f.1.aggregate? = none) : f ∈ a.tree.files := by
  obtain ⟨_, ⟨⟩, hassemble⟩ := of_plan_eq_ok h
  obtain ⟨-, shared, modules, hshared, -, -, rfl⟩ := Application.assemble_eq_ok_iff.1 hassemble
  obtain ⟨g, hg, hfg⟩ := exists_mem_of_mapM_eq_ok hshared hf
  have hcopied : Application.sharedFile p f.1 f.2 = .ok f := by
    simp only [Application.sharedFile, hnames, hblocks]
    rfl
  obtain rfl : f = g := Except.ok.inj (hcopied.symm.trans hfg)
  rw [Application.files_treeOf]
  exact List.mem_append_left _ hg

namespace Bundled

/-- The bundled styles. -/
def styles : ContainedPath × String := (⟨⟨"app/styles/app.css"⟩, by decide⟩, appStyles)

/-- The styles are the same in every application. -/
theorem styles_mem_files {p : Project} {policy : RelationPolicy} {a : Application}
    (h : plan (.ok baseCode) p policy = .ok a) : styles ∈ a.tree.files := by
  have hshared : styles ∈ baseCode.sharedFiles :=
    BaseCode.mem_sharedFiles.2 ⟨mem_entries_baseCode.2 (by simp [styles, files]), by decide +kernel⟩
  exact mem_files_of_plan_eq_ok h hshared (by decide +kernel) (by decide +kernel)

/-- A project without entities is planned from the bundled base code. -/
theorem exists_plan_eq_ok {p : Project} (hp : p.IsPlain) (hnone : p.entities = []) :
    ∃ a, plan (.ok baseCode) p .permissive = .ok a := by
  have hfits : p.Fits baseCode := fits hp (by simp [hnone]) (by simp [hnone])
  exact exists_plan_permissive_iff.2 (exists_assemble_iff_fits.2 hfits)

end Bundled

end Scaffold
