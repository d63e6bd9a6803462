import Scaffold.Assembly.Generate
import Scaffold.Proofs.Store.Run

/-!
# Runs against a store

What a run does to a store that answers from a state. A run that gets as far as the store asks
whether there is anything at the root, then makes its changes up to the first that fails, and where
nothing was before it ends a failure with one removal (`Store.run_write`, `run_generate`). So what
every one of these calls keeps is kept by the run (`generate_induction`).
-/

namespace Scaffold

variable {σ : Type} {store : Store (StateM σ)} {root : Path} {force : Bool}

namespace Store

theorem run_write (changes : List Change) (s : σ) :
    (store.write changes root force).run s =
      match (store.has root).run s with
      | (existed, s₁) =>
        if existed && !force then (.error (.run (.projectExists root)), s₁)
        else match (store.applyAll changes).run s₁ with
          | (.ok (), s₂) => (.ok (), s₂)
          | (.error e, s₂) =>
            (.error e, if existed then s₂ else ((store.removeDirectory root).run s₂).2) := by
  rw [write, run_bind]
  rcases (store.has root).run s with ⟨existed, s₁⟩
  simp only
  split
  · rfl
  · rw [run_bind]
    rcases (store.applyAll changes).run s₁ with ⟨e | ⟨⟩, s₂⟩
    · cases existed <;> rfl
    · rfl

theorem write_induction {Inv : σ → Prop} {changes : List Change}
    (hhas : ∀ s, Inv s → Inv ((store.has root).run s).2)
    (hchanges : ∀ c ∈ changes, ∀ s, Inv s → Inv ((store.apply c).run s).2)
    (hremove : ∀ s, Inv s → Inv ((store.removeDirectory root).run s).2) {s : σ} (hs : Inv s) :
    Inv ((store.write changes root force).run s).2 := by
  have hasked := hhas s hs
  rw [run_write]
  generalize (store.has root).run s = asked at hasked ⊢
  obtain ⟨existed, s₁⟩ := asked
  have hmade := applyAll_induction hchanges hasked
  simp only
  split
  · exact hasked
  · generalize (store.applyAll changes).run s₁ = made at hmade ⊢
    obtain ⟨e | ⟨⟩, s₂⟩ := made
    · cases existed
      · exact hremove s₂ hmade
      · exact hmade
    · exact hmade

end Store

section
variable {loaded : Except Error BaseCode} {p : Project} {options : GenerateOptions}

theorem run_generate (s : σ) : (generate store loaded p root options).run s =
      match plan loaded p options.policy with
      | .error e => (.error e, s)
      | .ok a =>
        match (store.write (a.tree.changes root) root options.force).run s with
        | (.ok (), s') => (.ok (a.report p root), s')
        | (.error e, s') => (.error e, s') := by
  rw [generate]
  cases plan loaded p options.policy with
  | error e => rfl
  | ok a =>
    simp only [run_bind]
    rcases (store.write (a.tree.changes root) root options.force).run s with ⟨e | ⟨⟩, s'⟩ <;> rfl

section
variable {a : Application} (ha : plan loaded p options.policy = .ok a) {s s' : σ}
include ha

/-- A run where nothing was before. -/
theorem run_generate_of_new (hhas : (store.has root).run s = (false, s')) :
    (generate store loaded p root options).run s =
      match (store.applyAll (a.tree.changes root)).run s' with
      | (.ok (), t) => (.ok (a.report p root), t)
      | (.error e, t) => (.error e, ((store.removeDirectory root).run t).2) := by
  rw [run_generate, ha]
  simp only [Store.run_write, hhas, Bool.false_and, Bool.false_eq_true, if_false]
  rcases (store.applyAll (a.tree.changes root)).run s' with ⟨e | ⟨⟩, t⟩ <;> rfl

/-- A run that is refused. -/
theorem run_generate_of_existed (hhas : (store.has root).run s = (true, s'))
    (hforce : options.force = false) : (generate store loaded p root options).run s =
      (.error (.run (.projectExists root)), s') := by
  rw [run_generate, ha]
  simp only [Store.run_write, hhas, hforce]
  rfl

end

/-- What all calls of a run keep, the run keeps. -/
theorem generate_induction {Inv : σ → Prop}
    (hhas : ∀ s, Inv s → Inv ((store.has root).run s).2)
    (hchanges : ∀ a, plan loaded p options.policy = .ok a →
      ∀ c ∈ a.tree.changes root, ∀ s, Inv s → Inv ((store.apply c).run s).2)
    (hremove : ∀ s, Inv s → Inv ((store.removeDirectory root).run s).2) {s : σ} (hs : Inv s) :
    Inv ((generate store loaded p root options).run s).2 := by
  rw [run_generate]
  cases hplan : plan loaded p options.policy with
  | error e => exact hs
  | ok a =>
    have hwritten : Inv ((store.write (a.tree.changes root) root options.force).run s).2 :=
      Store.write_induction hhas (hchanges a hplan) hremove hs
    simp only
    generalize (store.write (a.tree.changes root) root options.force).run s = written at hwritten ⊢
    obtain ⟨e | ⟨⟩, s'⟩ := written
    · exact hwritten
    · exact hwritten

end

end Scaffold
