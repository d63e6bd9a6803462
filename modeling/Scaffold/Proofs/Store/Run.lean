import Scaffold.Store.Basic

/-!
# Changes one after the other

Changes are made up to the first that fails (`run_applyAll_cons`), so that what each of them keeps
is kept by all of them, wherever they stop (`applyAll_induction`).
-/

namespace Scaffold

variable {σ : Type} {store : Store (StateM σ)}

theorem run_bind {α β : Type} (x : StateM σ α) (f : α → StateM σ β) (s : σ) :
    (x >>= f).run s = (f (x.run s).1).run (x.run s).2 := rfl

namespace Store

theorem run_applyAll_cons (c : Change) (rest : List Change) (s : σ) :
    (store.applyAll (c :: rest)).run s =
      match (store.apply c).run s with
      | (.ok (), s') => (store.applyAll rest).run s'
      | (.error e, s') => (.error e, s') := by
  rw [applyAll, run_bind]
  rcases (store.apply c).run s with ⟨e | ⟨⟩, s'⟩ <;> rfl

/-- Changes behind others that succeed. -/
theorem run_applyAll_append {before rest : List Change} {s s' : σ}
    (h : (store.applyAll before).run s = (.ok (), s')) :
    (store.applyAll (before ++ rest)).run s = (store.applyAll rest).run s' := by
  induction before generalizing s with
  | nil =>
    cases h
    rfl
  | cons c before ih =>
    rw [run_applyAll_cons] at h
    rw [List.cons_append, run_applyAll_cons]
    generalize (store.apply c).run s = made at h ⊢
    obtain ⟨e | ⟨⟩, t⟩ := made
    · cases h
    · exact ih h

theorem applyAll_induction {Inv : σ → Prop} {changes : List Change}
    (hchanges : ∀ c ∈ changes, ∀ s, Inv s → Inv ((store.apply c).run s).2) {s : σ} (hs : Inv s) :
    Inv ((store.applyAll changes).run s).2 := by
  induction changes generalizing s with
  | nil => exact hs
  | cons c changes ih =>
    have hc := hchanges c (by simp) s hs
    rw [run_applyAll_cons]
    generalize (store.apply c).run s = made at hc ⊢
    obtain ⟨e | ⟨⟩, s'⟩ := made
    · exact hc
    · exact ih (fun d hd => hchanges d (by simp [hd])) hc

end Store

end Scaffold
