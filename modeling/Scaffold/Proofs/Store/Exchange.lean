import Scaffold.Proofs.Store.Run

/-!
# What is exchanged with a store

A store can be made to note every call together with the answer to it. Whatever it answers, changes
that are made one after the other are exchanged with it up to the first that fails, and no further
(`exists_run_applyAll_noted`).
-/

namespace Scaffold

/-- A call of a store with the answer to it. -/
inductive Exchange where
  | change (change : Change) (answer : Except Error Unit)
  | has (path : Path) (answer : Bool)

/-- What is exchanged when changes are made in order, and what comes of it: either none fails, or
the first that fails is the last that is made. -/
inductive Exchange.Made : List Change → List Exchange → Except Error Unit → Prop
  | done : Made [] [] (.ok ())
  | next {c : Change} {rest : List Change} {exchanges : List Exchange}
      {result : Except Error Unit} (made : Made rest exchanges result) :
      Made (c :: rest) (.change c (.ok ()) :: exchanges) result
  | failed (c : Change) (rest : List Change) (e : Error) :
      Made (c :: rest) [.change c (.error e)] (.error e)

namespace Store

variable {σ : Type} {behind : Store (StateM σ)}

/-- The store in front of another that notes every call with the answer to it. -/
def noted (behind : Store (StateM σ)) : Store (StateM (List Exchange × σ)) where
  createDirectory p := note (.createDirectory p)
  writeFile p content := note (.writeFile p content)
  has p := fun (before, s) =>
    let (found, s) := (behind.has p).run s
    (found, before ++ [.has p found], s)
  removeDirectory p := note (.removeDirectory p)
where
  /-- Makes a change and notes it. -/
  note (c : Change) : StateM (List Exchange × σ) (Except Error Unit) := fun (before, s) =>
    let (answer, s) := (behind.apply c).run s
    (answer, before ++ [.change c answer], s)

theorem run_has_noted (p : Path) (before : List Exchange) (s : σ) :
    (behind.noted.has p).run (before, s) =
      (((behind.has p).run s).1, before ++ [.has p ((behind.has p).run s).1],
        ((behind.has p).run s).2) := rfl

theorem run_apply_noted (c : Change) (before : List Exchange) (s : σ) :
    (behind.noted.apply c).run (before, s) =
      (((behind.apply c).run s).1, before ++ [.change c ((behind.apply c).run s).1],
        ((behind.apply c).run s).2) := by
  cases c <;> rfl

theorem run_removeDirectory_noted (p : Path) (before : List Exchange) (s : σ) :
    (behind.noted.removeDirectory p).run (before, s) =
      (((behind.removeDirectory p).run s).1,
        before ++ [.change (.removeDirectory p) ((behind.removeDirectory p).run s).1],
        ((behind.removeDirectory p).run s).2) :=
  run_apply_noted (.removeDirectory p) before s

/-- Changes are exchanged up to the first that fails, whose error is the result. -/
theorem exists_run_applyAll_noted (behind : Store (StateM σ)) (changes : List Change)
    (before : List Exchange) (s : σ) :
    ∃ result exchanges s', (behind.noted.applyAll changes).run (before, s) =
      (result, before ++ exchanges, s') ∧ Exchange.Made changes exchanges result := by
  -- a change that fails ends the run, so that the induction goes on behind the others only
  induction changes generalizing before s with
  | nil => exact ⟨.ok (), [], s, by rw [List.append_nil]; rfl, .done⟩
  | cons c changes ih =>
    rw [run_applyAll_cons, run_apply_noted]
    rcases (behind.apply c).run s with ⟨e | ⟨⟩, s₁⟩
    · exact ⟨.error e, _, s₁, rfl, .failed c changes e⟩
    · obtain ⟨result, exchanges, s₂, hrun, hmade⟩ := ih (before ++ [.change c (.ok ())]) s₁
      refine ⟨result, _ :: exchanges, s₂, ?_, .next hmade⟩
      rw [List.append_assoc, List.singleton_append] at hrun
      exact hrun

end Store

end Scaffold
