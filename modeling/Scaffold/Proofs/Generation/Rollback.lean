import Scaffold.Proofs.Generation.Changes
import Scaffold.Proofs.Generation.Run
import Scaffold.Proofs.Store.Front
import Scaffold.Proofs.Store.Memory

/-!
# What a failed run leaves

A run changes files at its root and below it only (`SameOutside`), and besides what lies there it
makes at most directories that the root lies in (`GrownAround`). Where there was nothing at the root
of a store that was reached from the empty one, there was nothing below it either, so that the
removal which ends a failed run takes back just what the run has made (`generate_rollsBack`).
-/

namespace Scaffold

namespace Memory

variable {root : Path} {s t : Memory} {c : Change}

/-! ### Changes around a root -/

/-- The files that are neither at `root` nor below it are the same. -/
def SameOutside (root : Path) (s t : Memory) : Prop :=
  (t.removeDirectory root).files = (s.removeDirectory root).files

namespace SameOutside

theorem refl (root : Path) (s : Memory) : SameOutside root s s := rfl

theorem find? (h : SameOutside root s t) {q : Path} (hq : q.startsWith root = false) :
    t.files.find? q = s.files.find? q := by
  have hfind := congrArg (PathMap.find? · q) h
  simpa [find?_removeDirectory, hq] using hfind

theorem apply (hc : c.IsAround root) (h : SameOutside root s t) :
    SameOutside root s ((store.apply c).run t).2 := by
  cases c with
  | createDirectory p => exact h
  | writeFile p content =>
    have hin : p.startsWith root = true := Path.startsWith_iff.2 hc
    rw [run_apply_writeFile]
    split
    · refine Eq.trans ?_ h
      rw [files_removeDirectory, files_removeDirectory]
      exact PathMap.filter_insert_of_keep_eq_false (Path.not_startsWith_congr root) t.files
        (by rw [hin, Bool.not_true]) content
    · exact h
  | removeDirectory p => exact hc.elim

theorem removeDirectory (h : SameOutside root s t) :
    SameOutside root s (t.removeDirectory root) := by
  refine Eq.trans ?_ h
  rw [files_removeDirectory (t.removeDirectory root)]
  exact PathMap.filter_eq_self fun e he => (List.mem_filter.1 he).2

end SameOutside

/-- `t` is `s` with other things at and below `root`, and with directories that `root` lies in. -/
structure GrownAround (root : Path) (s t : Memory) : Prop where
  outside : SameOutside root s t
  kept : ∀ q, s.directories.contains q = true → t.directories.contains q = true
  directories : ∀ q, t.directories.contains q = true → s.directories.contains q = true ∨
    (q.components ≠ [] ∧ q.components <+: root.components) ∨ q.startsWith root = true

namespace GrownAround

theorem refl (root : Path) (s : Memory) : GrownAround root s s :=
  ⟨.refl root s, fun _ h => h, fun _ h => .inl h⟩

theorem createDirectory {p : Path} (hp : (Change.createDirectory p).IsAround root)
    (h : GrownAround root s t) : GrownAround root s (t.createDirectory p) where
  outside := h.outside
  kept q hq := contains_createDirectory.2 (.inr (h.kept q hq))
  directories := by
    intro q hq
    rcases contains_createDirectory.1 hq with ⟨hne, hqp⟩ | hq
    · right
      rw [Path.startsWith_iff]
      rcases hp with hp | hp
      · exact .inl ⟨hne, hqp.trans hp⟩
      · exact (List.prefix_or_prefix_of_prefix hqp hp).imp_left fun hqr => ⟨hne, hqr⟩
    · exact h.directories q hq

theorem apply (hc : c.IsAround root) (h : GrownAround root s t) :
    GrownAround root s ((store.apply c).run t).2 := by
  have houtside := h.outside.apply hc
  cases c with
  | createDirectory p => exact h.createDirectory hc
  | writeFile p content =>
    rw [run_apply_writeFile] at houtside ⊢
    split
    · rename_i hadmits
      rw [if_pos hadmits] at houtside
      exact ⟨houtside, h.kept, h.directories⟩
    · exact h
  | removeDirectory p => exact hc.elim

end GrownAround

/-! ### Removing the root -/

/-- What a failed run with nothing at its root may leave: the files of before, nothing at or below
the root, and perhaps new directories that the root lies in. -/
structure RolledBack (root : Path) (s t : Memory) : Prop where
  files : t.files = s.files
  absent : ∀ q, q.startsWith root = true → t.has q = false
  kept : ∀ q, s.directories.contains q = true → t.directories.contains q = true
  directories : ∀ q, t.directories.contains q = true → s.directories.contains q = true ∨
    q.components ≠ [] ∧ q.components <+: root.components ∧ q.components ≠ root.components

namespace Closed

variable (h : s.Closed) (hroot : root.text ≠ "") (hnew : s.has root = false)
include h hroot hnew

theorem files_removeDirectory_eq_self : (s.removeDirectory root).files = s.files := by
  rw [files_removeDirectory]
  refine PathMap.filter_eq_self fun e he => ?_
  have hhas : s.has e.1 = true := by
    rw [has_iff]
    exact .inl (PathMap.contains_of_mem he)
  rw [h.startsWith_eq_false hroot hnew hhas, Bool.not_false]

theorem rolledBack_self : RolledBack root s s where
  files := rfl
  absent q hq := by
    rw [Bool.eq_false_iff]
    intro hhas
    have hout := h.startsWith_eq_false hroot hnew hhas
    simp [hq] at hout
  kept _ hq := hq
  directories _ hq := .inl hq

theorem rolledBack_removeDirectory (hgrown : GrownAround root s t) :
    RolledBack root s (t.removeDirectory root) where
  files := hgrown.outside.trans (h.files_removeDirectory_eq_self hroot hnew)
  absent q hq := by
    rw [Bool.eq_false_iff, Ne, has_removeDirectory_iff]
    simp [hq]
  kept q hq := by
    have hout := h.startsWith_eq_false hroot hnew (has_iff.2 (.inr hq))
    exact contains_removeDirectory.2 ⟨hout, hgrown.kept q hq⟩
  directories q hq := by
    obtain ⟨hout, hq⟩ := contains_removeDirectory.1 hq
    rcases hgrown.directories q hq with hq | ⟨hne, hqr⟩ | hin
    · exact .inl hq
    · refine .inr ⟨hne, hqr, fun heq => ?_⟩
      exact Bool.eq_false_iff.1 hout (Path.startsWith_iff.2 (heq ▸ List.prefix_rfl))
    · simp [hin] at hout

end Closed

end Memory

/-! ### Runs -/

variable {fault? : Nat → Change → Option Error} {root : Path} {s : Memory}

theorem Memory.GrownAround.applyAll (t : OutputTree) {w : Nat × Memory}
    (hw : GrownAround root s w.2) :
    GrownAround root s (((store.faulty fault?).applyAll (t.changes root)).run w).2.2 := by
  have hchange : ∀ c ∈ t.changes root, ∀ w : Nat × Memory, GrownAround root s w.2 →
      GrownAround root s (((store.faulty fault?).apply c).run w).2.2 :=
    fun c hc w hw => Store.apply_faulty_induction
      (fun t ht => ht.apply (OutputTree.isAround_of_mem_changes hc)) hw
  exact Store.applyAll_induction hchange hw

theorem Store.run_has_faulty (s : Memory) (n : Nat) :
    ((Memory.store.faulty fault?).has root).run (n, s) = (s.has root, n, s) := rfl

section
variable (hnew : s.has root = false) (hremove : ∀ n p, fault? n (.removeDirectory p) = none)
  {loaded : Except Error BaseCode} {p : Project} (options : GenerateOptions) {a : Application}
include hnew hremove

/-- A run ends with the removal of its root if one of its changes fails. -/
theorem exists_run_generate_eq_error (ha : plan loaded p options.policy = .ok a) {c : Change}
    (hc : c ∈ a.tree.changes root) (hfault : ∀ n, fault? n c ≠ none) (n : Nat) :
    ∃ e n', ∃ t : Memory, (generate (Memory.store.faulty fault?) loaded p root options).run (n, s) =
      (.error e, n', t.removeDirectory root) := by
  obtain ⟨e, ⟨n₁, t⟩, hmade⟩ : ∃ e w,
      ((Memory.store.faulty fault?).applyAll (a.tree.changes root)).run (n, s) = (.error e, w) :=
    Store.exists_run_applyAll_faulty_eq_error hc hfault (n, s)
  refine ⟨e, n₁ + 1, t, ?_⟩
  rw [run_generate_of_new ha (hnew ▸ Store.run_has_faulty s n), hmade]
  simp only [Store.run_removeDirectory_faulty, hremove]
  rfl

end

/-- A run that fails leaves what was there as it was, if there was nothing at its root and the
removal of the root does not fail. -/
theorem generate_rollsBack (hs : s.Reachable) (hroot : root.text ≠ "") (hnew : s.has root = false)
    (hremove : ∀ n p, fault? n (.removeDirectory p) = none)
    {loaded : Except Error BaseCode} {p : Project} {options : GenerateOptions} {n n' : Nat}
    {s' : Memory} {e : Error}
    (h : (generate (Memory.store.faulty fault?) loaded p root options).run (n, s) =
      (.error e, n', s')) :
    s.RolledBack root s' := by
  cases hplan : plan loaded p options.policy with
  | error e =>
    rw [run_generate, hplan] at h
    cases h
    exact hs.closed.rolledBack_self hroot hnew
  | ok a =>
    have hgrown : Memory.GrownAround root s
        (((Memory.store.faulty fault?).applyAll (a.tree.changes root)).run (n, s)).2.2 :=
      (Memory.GrownAround.refl root s).applyAll a.tree
    rw [run_generate_of_new hplan (hnew ▸ Store.run_has_faulty s n)] at h
    generalize ((Memory.store.faulty fault?).applyAll (a.tree.changes root)).run (n, s) = made
      at h hgrown
    obtain ⟨e' | ⟨⟩, n₁, t⟩ := made
    · simp only [Store.run_removeDirectory_faulty, hremove] at h
      cases h
      exact hs.closed.rolledBack_removeDirectory hroot hnew hgrown
    · cases h

/-- A run beside a file of one's own whose styles cannot be written. -/
theorem generate_rollsBack_of_styles :
    ∃ s s' e n', s.Reachable ∧ s.files.find? ⟨"out2/notes.txt"⟩ = some "mine" ∧
      (generate (Memory.store.faulty <| Store.failingOn <|
          .writeFile ⟨"out/app/styles/app.css"⟩ Bundled.appStyles)
        (.ok Bundled.baseCode) ⟨"Garage", none, []⟩ ⟨"out"⟩ {}).run (0, s) = (.error e, n', s') ∧
      s.RolledBack ⟨"out"⟩ s' := by
  have hwritten : (Memory.empty.createDirectory ⟨"out2"⟩).writeFile ⟨"out2/notes.txt"⟩ "mine" =
      .ok ⟨.ofList [(⟨"out2/notes.txt"⟩, "mine")], .ofList [(⟨"out2"⟩, ())]⟩ :=
    Memory.writeFile_eq_ok_iff.2 ⟨by decide +kernel, rfl⟩
  have hs := (Memory.Reachable.empty.createDirectory ⟨"out2"⟩).writeFile hwritten
  have hnew : Memory.has ⟨.ofList [(⟨"out2/notes.txt"⟩, "mine")], .ofList [(⟨"out2"⟩, ())]⟩
      ⟨"out"⟩ = false := by decide +kernel
  have hremove : ∀ n p, Store.failingOn
      (.writeFile ⟨"out/app/styles/app.css"⟩ Bundled.appStyles) n (.removeDirectory p) = none :=
    fun n p => Store.failingOn_of_ne Change.noConfusion n
  obtain ⟨a, ha⟩ := Bundled.exists_plan_eq_ok (p := ⟨"Garage", none, []⟩) (by decide +kernel) rfl
  have hwrite := OutputTree.writeFile_mem_changes (Bundled.styles_mem_files ha) ⟨"out"⟩
  have hpath : Path.join ⟨"out"⟩ Bundled.styles.1.path = ⟨"out/app/styles/app.css"⟩ := by
    decide +kernel
  rw [hpath] at hwrite
  obtain ⟨e, n', t, hrun⟩ := exists_run_generate_eq_error hnew hremove {} ha hwrite
    (Store.failingOn_self _) 0
  exact ⟨_, _, e, n', hs, by decide +kernel, hrun,
    generate_rollsBack hs (by decide) hnew hremove hrun⟩

end Scaffold
