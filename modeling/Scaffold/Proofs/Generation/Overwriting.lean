import Scaffold.Proofs.Generation.Effect
import Scaffold.Proofs.Generation.Rollback

/-!
# Which files a run spares

A run that is not forced spares the files that are there, unless its root is the empty path
(`generate_keepsFiles_iff`). There is never a directory at that path, so that the run takes it for
new: it writes over what is there, and if it fails it removes all there is.
-/

namespace Scaffold

namespace Memory

variable {root : Path} {s t : Memory}

/-- Every file of `s` is in `t` as it was. -/
def KeepsFiles (s t : Memory) : Prop :=
  ∀ q content, s.files.find? q = some content → t.files.find? q = some content

theorem KeepsFiles.refl (s : Memory) : s.KeepsFiles s := fun _ _ h => h

theorem SameOutside.keepsFiles (h : SameOutside root s t) (hs : s.Closed) (hroot : root.text ≠ "")
    (hnew : s.has root = false) : s.KeepsFiles t := by
  intro q content hq
  have hhas : s.has q = true := by
    rw [has_iff, PathMap.contains_eq_isSome_find?, hq]
    exact .inl rfl
  rw [h.find? (hs.startsWith_eq_false hroot hnew hhas), hq]

theorem find?_removeDirectory_of_text_eq_empty (h : root.text = "") (q : Path) :
    (s.removeDirectory root).files.find? q = none := by
  rw [find?_removeDirectory, if_pos (Path.startsWith_of_text_eq_empty h q)]

theorem exists_find?_eq_some (h : s.files.entries ≠ []) :
    ∃ q content, s.files.find? q = some content := by
  obtain ⟨e, he⟩ := List.exists_mem_of_ne_nil _ h
  exact ⟨e.1, e.2, PathMap.find?_of_mem he rfl⟩

end Memory

section
variable {fault? : Nat → Change → Option Error} {root : Path} {s : Memory}
  {loaded : Except Error BaseCode} {p : Project}

theorem generate_sameOutside (options : GenerateOptions) (n : Nat) :
    Memory.SameOutside root s
      ((generate (Memory.store.faulty fault?) loaded p root options).run (n, s)).2.2 := by
  have hchanges : ∀ a, plan loaded p options.policy = .ok a → ∀ c ∈ a.tree.changes root,
      ∀ w : Nat × Memory, Memory.SameOutside root s w.2 →
        Memory.SameOutside root s (((Memory.store.faulty fault?).apply c).run w).2.2 := by
    intro a _ c hc w hw
    have haround := OutputTree.isAround_of_mem_changes hc
    exact Store.apply_faulty_induction (fun t ht => ht.apply haround) hw
  have hremove : ∀ w : Nat × Memory, Memory.SameOutside root s w.2 →
      Memory.SameOutside root s (((Memory.store.faulty fault?).removeDirectory root).run w).2.2 :=
    fun w hw => Store.apply_faulty_induction (c := .removeDirectory root)
      (fun t ht => ht.removeDirectory) hw
  exact generate_induction (fun w hw => hw) hchanges hremove (Memory.SameOutside.refl root s)

/-- A run that is not forced does nothing where there is something at its root. -/
theorem run_generate_of_has (hthere : s.has root = true) (policy : RelationPolicy) (n : Nat) :
    ((generate (Memory.store.faulty fault?) loaded p root ⟨policy, false⟩).run (n, s)).2.2 = s := by
  cases hplan : plan loaded p policy with
  | error e => rw [run_generate, hplan]
  | ok a =>
    rw [run_generate_of_existed hplan (hthere ▸ Store.run_has_faulty s n) rfl]

end

/-- The runs that are not forced spare the files of a store, whatever fails on the way, exactly if
their root is not the empty path, or they are refused there, or there are no files. -/
theorem generate_keepsFiles_iff {s : Memory} (hs : s.Reachable) (root : Path) :
    (∀ fault? loaded p policy n, s.KeepsFiles
      ((generate (Memory.store.faulty fault?) loaded p root ⟨policy, false⟩).run (n, s)).2.2) ↔
    root.text ≠ "" ∨ s.has root = true ∨ s.files.entries = [] := by
  constructor
  · intro h
    by_contra hbad
    obtain ⟨hroot, hnew, hfiles⟩ := by simpa only [not_or, not_not, Bool.not_eq_true] using hbad
    -- a run that fails at once takes all files with it
    obtain ⟨a, ha⟩ := Bundled.exists_plan_eq_ok (p := ⟨"", none, []⟩) (by decide +kernel) rfl
    have hremove : ∀ n p, Store.failingOn (.createDirectory root) n (.removeDirectory p) = none :=
      fun n p => Store.failingOn_of_ne Change.noConfusion n
    have hfirst : Change.createDirectory root ∈ a.tree.changes root := List.mem_cons_self
    obtain ⟨e, n', t, hrun⟩ := exists_run_generate_eq_error hnew hremove ⟨.permissive, false⟩ ha
      hfirst (Store.failingOn_self _) 0
    obtain ⟨q, content, hq⟩ := Memory.exists_find?_eq_some hfiles
    have hkept := h (Store.failingOn (.createDirectory root)) (.ok Bundled.baseCode) ⟨"", none, []⟩
      .permissive 0 q content hq
    rw [hrun, Memory.find?_removeDirectory_of_text_eq_empty hroot] at hkept
    cases hkept
  · rintro (hroot | hthere | hnone) fault? loaded p policy n
    · cases hhas : s.has root with
      | false => exact (generate_sameOutside _ n).keepsFiles hs.closed hroot hhas
      | true =>
        rw [run_generate_of_has hhas]
        exact .refl s
    · rw [run_generate_of_has hthere]
      exact .refl s
    · intro q content hq
      simp [PathMap.find?, hnone] at hq

/-- A store with styles of one's own. -/
def Memory.ownStyles : Memory where
  files := .ofList [(⟨"app/styles/app.css"⟩, "mine")]
  directories := .ofList [(⟨"app"⟩, ()), (⟨"app/styles"⟩, ())]

theorem Memory.reachable_ownStyles : ownStyles.Reachable := by
  have hwritten : (Memory.empty.createDirectory ⟨"app/styles"⟩).writeFile ⟨"app/styles/app.css"⟩
      "mine" = .ok ownStyles := writeFile_eq_ok_iff.2 ⟨by decide +kernel, rfl⟩
  exact (Reachable.empty.createDirectory ⟨"app/styles"⟩).writeFile hwritten

/-- One's own styles outlive a run beside them whose root cannot be made. -/
theorem generate_keepsFiles_of_out :
    Memory.ownStyles.Reachable ∧ Memory.ownStyles.KeepsFiles ((generate
      (Memory.store.faulty <| Store.failingOn <| .createDirectory ⟨"out"⟩) (.ok Bundled.baseCode)
      ⟨"Garage", none, []⟩ ⟨"out"⟩ ⟨.permissive, false⟩).run (0, .ownStyles)).2.2 := by
  refine ⟨Memory.reachable_ownStyles, ?_⟩
  exact (generate_keepsFiles_iff Memory.reachable_ownStyles ⟨"out"⟩).2 (.inl (by decide)) _ _ _ _ _

theorem Bundled.appStyles_ne : appStyles ≠ "mine" := by
  have hend (s : String) : (s ++ "\x7d\n").toList.getLast? = some '\n' := by
    rw [String.toList_append, List.getLast?_append]
    rfl
  intro h
  have hlast : appStyles.toList.getLast? = some '\n' := hend _
  rw [h] at hlast
  exact absurd hlast (by decide)

/-- An unnamed project puts the bundled styles in the place of one's own. -/
theorem not_keepsFiles_of_unnamed :
    Memory.ownStyles.Reachable ∧ ¬ Memory.ownStyles.KeepsFiles ((generate Memory.store
      (.ok Bundled.baseCode) ⟨"", none, []⟩ ⟨""⟩ ⟨.permissive, false⟩).run .ownStyles).2 := by
  refine ⟨Memory.reachable_ownStyles, fun hkept => ?_⟩
  obtain ⟨a, ha⟩ := Bundled.exists_plan_eq_ok (p := ⟨"", none, []⟩) (by decide +kernel) rfl
  have hjoin (p : Path) : Path.join ⟨""⟩ p = p := by
    simp [Path.join, Path.chars]
  have hdistinct : (a.tree.files.map fun f => (Path.join ⟨""⟩ f.1.path).components).Nodup := by
    simpa only [hjoin] using nodup_files_of_plan_eq_ok ha
  have hlast := OutputTree.lastAt?_eq_some hdistinct (Bundled.styles_mem_files ha)
  rw [hjoin] at hlast
  have hfree : (Memory.ownStyles.has ⟨""⟩ && !false) = false := by decide +kernel
  have hown : Memory.ownStyles.files.find? Bundled.styles.1.path = some "mine" := by
    decide +kernel
  have hread := hkept _ _ hown
  rw [run_generate_memory_of_plan ⟨.permissive, false⟩ ha hfree, Memory.find?_withTree,
    hlast] at hread
  exact Bundled.appStyles_ne (Option.some.inj hread)

end Scaffold
