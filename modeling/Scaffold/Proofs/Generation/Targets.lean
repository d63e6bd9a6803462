import Mathlib.Data.List.Dedup
import Scaffold.Proofs.Generation.Effect

/-!
# Where the entries of a tree are written

The check of a tree compares the paths of its entries as they are, and a leading `.` counts
in them. Below a root it does not. So two entries of a tree that passes the check are
written to one place exactly if one of them is the other behind a `.`
(`ContainedPath.IsDotted`), and without such files there are as many files below a new root
as the tree has (`OutputTree.nodup_targets_iff_of_validate`).
-/

namespace Scaffold

open Scaffold.Path (Component)

/-! ### Paths below a root -/

namespace ContainedPath

/-- The path `p` is `q` behind a `.`. -/
def IsDotted (p q : ContainedPath) : Prop := p.path.components = .here :: q.path.components

instance : DecidableRel IsDotted := fun p q =>
  inferInstanceAs (Decidable (p.path.components = .here :: q.path.components))

theorem components_join {root : Path} (hroot : root.text ≠ "") (p : ContainedPath) :
    (root.join p.path).components = root.components ++ p.path.components.filter (· ≠ .here) := by
  rw [Path.components_join p.isAbsolute_eq_false, if_neg (mt Path.components_eq_nil_iff.1 hroot)]

/-- A `.` stands at the beginning of a path only. -/
theorem components_eq_or (p : ContainedPath) :
    p.path.components = p.path.components.filter (· ≠ .here) ∨
      p.path.components = .here :: p.path.components.filter (· ≠ .here) := by
  have htail := (Path.not_mem_tail_components p.path).2
  cases h : p.path.components with
  | nil => exact .inl rfl
  | cons c cs =>
    rw [h, List.tail_cons] at htail
    have hcs : cs.filter (· ≠ .here) = cs :=
      List.filter_eq_self.2 fun d hd => decide_eq_true fun heq => htail (heq ▸ hd)
    by_cases hc : c = .here
    · right
      rw [List.filter_cons_of_neg (by simp [hc]), hcs, hc]
    · left
      rw [List.filter_cons_of_pos (by simp [hc]), hcs]

theorem filter_components_eq_iff {p q : ContainedPath} :
    p.path.components.filter (· ≠ .here) = q.path.components.filter (· ≠ .here) ↔
      p.path.components = q.path.components ∨ p.IsDotted q ∨ q.IsDotted p := by
  constructor
  · intro h
    rcases p.components_eq_or with hp | hp <;> rcases q.components_eq_or with hq | hq
    · exact .inl (hp.trans (h.trans hq.symm))
    · exact .inr (.inr (hq.trans (h ▸ congrArg (Component.here :: ·) hp.symm)))
    · exact .inr (.inl (hp.trans (h ▸ congrArg (Component.here :: ·) hq.symm)))
    · exact .inl (hp.trans (h ▸ hq.symm))
  · rintro (h | h | h) <;> rw [h] <;> simp

/-- Things with different paths come to stand in one place below a root exactly if one of the paths
is another one behind a `.`. -/
theorem nodup_join_iff {root : Path} (hroot : root.text ≠ "") {α : Type} {l : List α}
    {path : α → ContainedPath} (hnodup : (l.map fun a => (path a).path.components).Nodup) :
    (l.map fun a => (root.join (path a).path).components).Nodup ↔
      ∀ a ∈ l, ∀ b ∈ l, ¬ (path a).IsDotted (path b) := by
  have hmap : (l.map fun a => (root.join (path a).path).components) =
      ((l.map fun a => (path a).path.components).map (List.filter (· ≠ .here))).map
        (root.components ++ ·) := by
    rw [List.map_map, List.map_map]
    exact List.map_congr_left fun a _ => (path a).components_join hroot
  rw [hmap, List.nodup_map_iff (List.append_right_injective _), List.nodup_map_iff_inj_on hnodup]
  constructor
  · intro hinj a ha b hb hdotted
    have heq := hinj _ (List.mem_map.2 ⟨a, ha, rfl⟩) _ (List.mem_map.2 ⟨b, hb, rfl⟩)
      (filter_components_eq_iff.2 (.inr (.inl hdotted)))
    exact List.cons_ne_self _ _ (hdotted.symm.trans heq)
  · intro hnone _ hx _ hy heq
    obtain ⟨a, ha, rfl⟩ := List.mem_map.1 hx
    obtain ⟨b, hb, rfl⟩ := List.mem_map.1 hy
    rcases filter_components_eq_iff.1 heq with h | h | h
    · exact h
    · exact absurd h (hnone a ha b hb)
    · exact absurd h (hnone b hb a ha)

end ContainedPath

/-! ### Files below a new root -/

/-- Where an entry of a tree is written. -/
def TreeEntry.target (root : Path) (entry : TreeEntry) : Path := root.join entry.path.path

theorem OutputTree.isSome_lastAt?_iff {t : OutputTree} {root q : Path} :
    (t.lastAt? root q).isSome ↔ ∃ f ∈ t.files, (root.join f.1.path).key = q.key := by
  simp [lastAt?, List.find?_isSome, Path.same]

namespace Memory

variable {s : Memory} {root : Path}

theorem mem_listFiles_iff {q : Path} :
    (∃ r ∈ s.listFiles, r.components = q.components) ↔ s.files.contains q = true := by
  simp only [PathMap.contains_iff, PathMap.mem_keys, listFiles, PathMap.paths, List.mem_map,
    Path.key_eq_iff, exists_exists_and_eq_and]

theorem nodup_components_listFiles (s : Memory) : (s.listFiles.map Path.components).Nodup := by
  have hkeys : ((s.listFiles.map Path.components).map (List.map Component.rank)).Nodup := by
    have h := s.files.nodup_keys
    rw [PathMap.keys] at h
    rw [listFiles, PathMap.paths, List.map_map, List.map_map]
    exact h
  exact .of_map _ hkeys

/-- Below a root where there was nothing, a file stands just where one of the tree is written. -/
theorem mem_listFiles_withTree_iff (hs : s.Closed) (hroot : root.text ≠ "") (hnew : s.has root = false)
    (t : OutputTree) {cs : List Component} :
    (∃ q ∈ (s.withTree root t).listFiles, q.startsWith root = true ∧ q.components = cs) ↔
      ∃ f ∈ t.files, (root.join f.1.path).components = cs := by
  have hcontains (q : Path) : (s.withTree root t).files.contains q = true ↔
      (t.lastAt? root q).isSome ∨ s.files.contains q = true := by
    rw [PathMap.contains_eq_isSome_find?, find?_withTree, Option.isSome_or, Bool.or_eq_true,
      PathMap.contains_eq_isSome_find?]
  constructor
  · rintro ⟨q, hq, hbelow, rfl⟩
    rcases (hcontains q).1 (mem_listFiles_iff.1 ⟨q, hq, rfl⟩) with h | h
    · obtain ⟨f, hf, hkey⟩ := OutputTree.isSome_lastAt?_iff.1 h
      exact ⟨f, hf, Path.key_eq_iff.1 hkey⟩
    · rw [hs.startsWith_eq_false hroot hnew (has_iff.2 (.inl h))] at hbelow
      cases hbelow
  · rintro ⟨f, hf, rfl⟩
    obtain ⟨q, hq, heq⟩ := mem_listFiles_iff.2 <|
      (hcontains (root.join f.1.path)).2 (.inl (OutputTree.isSome_lastAt?_iff.2 ⟨f, hf, rfl⟩))
    exact ⟨q, hq, Path.startsWith_iff.2 (heq ▸ (f.1.liesIn_join root).isPrefix), heq⟩

/-- As many files stand below a new root as the tree has, if no two of them are written to
one place. -/
theorem length_listFiles_withTree_iff (hs : s.Closed) (hroot : root.text ≠ "")
    (hnew : s.has root = false) (t : OutputTree) :
    ((s.withTree root t).listFiles.filter (·.startsWith root)).length = t.files.length ↔
      (t.files.map fun f => (root.join f.1.path).components).Nodup := by
  have hnodup : (((s.withTree root t).listFiles.filter (·.startsWith root)).map
      Path.components).Nodup :=
    (nodup_components_listFiles _).sublist (List.filter_sublist.map _)
  have hperm : (((s.withTree root t).listFiles.filter (·.startsWith root)).map Path.components).Perm
      (t.files.map fun f => (root.join f.1.path).components).dedup := by
    refine (List.perm_ext_iff_of_nodup hnodup (List.nodup_dedup _)).2 fun cs => ?_
    rw [List.mem_dedup, List.mem_map, List.mem_map,
      ← mem_listFiles_withTree_iff hs hroot hnew t]
    simp only [List.mem_filter, and_assoc]
  have hplaces : (t.files.map fun f => (root.join f.1.path).components).length = t.files.length :=
    List.length_map _
  have hlength := hperm.length_eq
  rw [List.length_map] at hlength
  rw [hlength, ← hplaces, ← List.dedup_eq_self]
  exact ⟨(List.dedup_sublist _).eq_of_length, congrArg List.length⟩

end Memory

/-- Two entries of a tree that passes its check are written to different places, below whatever
root, unless one is the other behind a `.`; and a run leaves as many files at a new root as the tree
has, unless this goes for two of its files. -/
theorem OutputTree.nodup_targets_iff_of_validate {t : OutputTree} (h : t.validate = .ok ())
    {root : Path} (hroot : root.text ≠ "") :
    ((t.entries.map fun entry => (entry.target root).components).Nodup ↔
      ∀ entry ∈ t.entries, ∀ other ∈ t.entries, ¬ entry.path.IsDotted other.path) ∧
    ∀ s : Memory, s.Reachable → s.has root = false → ∀ force, ∃ s',
      (Memory.store.write (t.changes root) root force).run s = (.ok (), s') ∧
        ((s'.listFiles.filter (·.startsWith root)).length = t.files.length ↔
          ∀ f ∈ t.files, ∀ g ∈ t.files, ¬ f.1.IsDotted g.1) := by
  refine ⟨ContainedPath.nodup_join_iff hroot (validate_eq_ok_iff.1 h).2, fun s hs hnew force => ?_⟩
  have hhas : (Memory.store.has root).run s = (false, s) := congrArg (·, s) hnew
  refine ⟨s.withTree root t, ?_, ?_⟩
  · simp only [Store.run_write, hhas, Memory.run_applyAll_changes]
    rfl
  · rw [Memory.length_listFiles_withTree_iff hs.closed hroot hnew]
    exact ContainedPath.nodup_join_iff hroot (nodup_components_files h)

/-- A `.` before the path of one file only. -/
theorem OutputTree.nodup_targets_of_app :
    let t : OutputTree := ⟨[.directory ⟨⟨"app"⟩, by decide⟩,
      .file ⟨⟨"./app/app.js"⟩, by decide⟩ "1", .file ⟨⟨"index.html"⟩, by decide⟩ "22"]⟩
    t.validate = .ok () ∧ (t.entries.map fun entry => (entry.target ⟨"out"⟩).components).Nodup ∧
      ∃ s', (Memory.store.write (t.changes ⟨"out"⟩) ⟨"out"⟩ false).run .empty = (.ok (), s') ∧
        (s'.listFiles.filter (·.startsWith ⟨"out"⟩)).length = 2 := by
  intro t
  have hvalid : t.validate = .ok () := OutputTree.validate_eq_ok_iff.2 (by decide +kernel)
  have hroot : Path.text ⟨"out"⟩ ≠ "" := by decide
  obtain ⟨htargets, hwrite⟩ := nodup_targets_iff_of_validate hvalid hroot
  obtain ⟨s', hrun, hfiles⟩ := hwrite .empty .empty (by decide +kernel) false
  exact ⟨hvalid, htargets.2 (by decide +kernel), s', hrun, hfiles.2 (by decide +kernel)⟩

/-- A file with a `.` before its path and one without pass the check, and one is written over
the other. -/
theorem OutputTree.not_nodup_targets_of_dot :
    let t : OutputTree := ⟨[.file ⟨⟨"./a"⟩, by decide⟩ "1", .file ⟨⟨"a"⟩, by decide⟩ "22"]⟩
    t.validate = .ok () ∧ ¬ (t.entries.map fun entry => (entry.target ⟨"out"⟩).components).Nodup ∧
      t.files.length = 2 ∧
      ((Memory.store.write (t.changes ⟨"out"⟩) ⟨"out"⟩ false).run .empty).1 = .ok () ∧
      ((Memory.store.write (t.changes ⟨"out"⟩) ⟨"out"⟩ false).run .empty).2.listFiles.length = 1 := by
  refine ⟨OutputTree.validate_eq_ok_iff.2 (by decide +kernel), by decide +kernel, rfl, ?_, ?_⟩
  · rfl
  · decide +kernel

end Scaffold
