import Scaffold.Proofs.BaseCode.Bundled
import Scaffold.Proofs.Generation.Changes
import Scaffold.Proofs.Generation.Run
import Scaffold.Proofs.Store.Front
import Scaffold.Store.Memory

/-!
# What a run reaches

A run makes directories and writes files at its root and below it only, and removes nothing but the
root, whatever the store answers (`generate_staysIn`). A file of the base code has to have a name:
the directory made for one that has none would be the one that the root lies in.
-/

namespace Scaffold

/-- A call that leaves alone what is neither the root nor below it. -/
def Call.StaysIn (root : Path) : Call → Prop
  | has p => p = root
  | change (.createDirectory p) | change (.writeFile p _) => p.LiesIn root
  | change (.removeDirectory p) => p = root

theorem Change.LiesIn.staysIn {root : Path} {c : Change} (h : c.LiesIn root) :
    (Call.change c).StaysIn root := by
  cases c with
  | createDirectory p => exact h
  | writeFile p content => exact h
  | removeDirectory p => exact h.elim

/-- Every call of a run stays in the root. -/
theorem generate_staysIn {σ : Type} (behind : Store (StateM σ)) (w : Watch σ)
    {loaded : Except Error BaseCode}
    (hbase : ∀ base, loaded = .ok base → ∀ f ∈ base.files.entries, ∃ s, .name s ∈ f.1.components)
    (p : Project) (root : Path) (options : GenerateOptions) :
    ((generate (Watch.store behind) loaded p root options).run w).2.NotedOnly
      (Call.StaysIn root) w.calls := by
  refine generate_induction (fun w' h => ?_) (fun a ha c hc w' h => ?_) (fun w' h => ?_)
    (Watch.NotedOnly.refl _ w)
  · have hin : (Call.has root).StaysIn root := rfl
    exact h.note hin (Watch.calls_has root w')
  · have hfiles := forall_mem_files_of_plan_eq_ok (fun p => ∃ s, .name s ∈ p.components) hbase
      (fun e model => ⟨"app", Application.app_mem_components_location e model⟩) ha
    have hin : c.LiesIn root := OutputTree.liesIn_of_mem_changes hfiles hc
    exact h.note hin.staysIn (Watch.calls_apply c w')
  · have hin : (Call.change (.removeDirectory root)).StaysIn root := rfl
    exact h.note hin (Watch.calls_apply (.removeDirectory root) w')

/-- A run of the bundled base code at a root that leads upward. -/
theorem generate_staysIn_of_bundled :
    (∀ base, Except.ok (ε := Error) Bundled.baseCode = .ok base →
      ∀ f ∈ base.files.entries, ∃ s, .name s ∈ f.1.components) ∧
    ((generate (Watch.store Memory.store) (.ok Bundled.baseCode)
      ⟨"Garage", none, [⟨"./old//cars", "car", [], []⟩]⟩ ⟨"../out"⟩ {}).run
        ⟨.empty, [], []⟩).2.NotedOnly (Call.StaysIn ⟨"../out"⟩) [] := by
  have hbase : ∀ base, Except.ok (ε := Error) Bundled.baseCode = .ok base →
      ∀ f ∈ base.files.entries, ∃ s, .name s ∈ f.1.components := by
    rintro base ⟨⟩ f hf
    exact Bundled.exists_name_of_mem_entries f hf
  exact ⟨hbase, generate_staysIn Memory.store ⟨.empty, [], []⟩ hbase _ _ _⟩

end Scaffold
