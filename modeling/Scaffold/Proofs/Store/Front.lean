import Scaffold.Proofs.Store.Run
import Scaffold.Store.Watched

/-!
# Stores in front of others

A store can be watched, which notes every call, or made to fail by plan, where a change that fails
does not reach the store behind. What is planned may hang on how many changes came before and on
what is changed, so that every pattern of failures is one plan.
-/

namespace Scaffold

variable {σ : Type} {behind : Store (StateM σ)}

/-! ### Watched stores -/

namespace Watch

theorem run_apply (c : Change) (w : Watch σ) :
    ((Watch.store behind).apply c).run w =
      let noted := { w with calls := w.calls ++ [.change c] }
      match w.refusals.find? fun r => r.covers c with
      | some r => (.error (.run (.store c.path r.reason)), noted)
      | none =>
        (((behind.apply c).run w.behind).1,
          { noted with behind := ((behind.apply c).run w.behind).2 }) := by
  have hchange : (Watch.store behind).apply c = change behind c := by cases c <;> rfl
  rw [hchange, change, run_bind, run_bind]
  change ((match w.refusals.find? fun r => r.covers c with
    | some r => pure (.error (.run (.store c.path r.reason)))
    | none => pass (behind.apply c) : StateM (Watch σ) (Except Error Unit)).run _) = _
  cases w.refusals.find? fun r => r.covers c <;> rfl

/-- Every change is noted, whether it is refused or not. -/
theorem calls_apply (c : Change) (w : Watch σ) :
    (((Watch.store behind).apply c).run w).2.calls = w.calls ++ [.change c] := by
  rw [run_apply]
  split <;> rfl

theorem calls_has (p : Path) (w : Watch σ) :
    (((Watch.store behind).has p).run w).2.calls = w.calls ++ [.has p] := rfl

/-- The calls noted behind those before are all good. -/
def NotedOnly (good : Call → Prop) (before : List Call) (w : Watch σ) : Prop :=
  ∃ calls, w.calls = before ++ calls ∧ ∀ call ∈ calls, good call

theorem NotedOnly.refl (good : Call → Prop) (w : Watch σ) : w.NotedOnly good w.calls :=
  ⟨[], (List.append_nil _).symm, by simp⟩

theorem NotedOnly.note {good : Call → Prop} {before : List Call} {w w' : Watch σ} {call : Call}
    (h : w.NotedOnly good before) (hcall : good call) (hw' : w'.calls = w.calls ++ [call]) :
    w'.NotedOnly good before := by
  obtain ⟨calls, hcalls, hgood⟩ := h
  refine ⟨calls ++ [call], by rw [hw', hcalls, List.append_assoc], fun call' hmem => ?_⟩
  rcases List.mem_append.1 hmem with hmem | hmem
  · exact hgood call' hmem
  · rwa [List.mem_singleton.1 hmem]

end Watch

/-! ### Stores that fail -/

namespace Store

/-- The store in front of another in which the changes fail that `fault?` gives an error for, given
how many changes came before. The state is that number and the state of the store behind. -/
def faulty (behind : Store (StateM σ)) (fault? : Nat → Change → Option Error) :
    Store (StateM (Nat × σ)) where
  createDirectory p := attempt (.createDirectory p)
  writeFile p content := attempt (.writeFile p content)
  has p := fun (n, s) =>
    let (found, s) := (behind.has p).run s
    (found, n, s)
  removeDirectory p := attempt (.removeDirectory p)
where
  /-- Makes a change unless it is one that fails. -/
  attempt (c : Change) : StateM (Nat × σ) (Except Error Unit) := fun (n, s) =>
    match fault? n c with
    | some e => (.error e, n + 1, s)
    | none =>
      let (made, s) := (behind.apply c).run s
      (made, n + 1, s)

variable {fault? : Nat → Change → Option Error}

theorem run_apply_faulty (c : Change) (n : Nat) (s : σ) :
    ((behind.faulty fault?).apply c).run (n, s) =
      match fault? n c with
      | some e => (.error e, n + 1, s)
      | none => (((behind.apply c).run s).1, n + 1, ((behind.apply c).run s).2) := by
  cases c <;> simp only [apply, faulty, faulty.attempt, StateT.run] <;> split <;> rfl

theorem run_removeDirectory_faulty (p : Path) (n : Nat) (s : σ) :
    ((behind.faulty fault?).removeDirectory p).run (n, s) =
      match fault? n (.removeDirectory p) with
      | some e => (.error e, n + 1, s)
      | none => (((behind.removeDirectory p).run s).1, n + 1,
          ((behind.removeDirectory p).run s).2) :=
  run_apply_faulty (.removeDirectory p) n s

/-- The plan by which one change always fails. -/
def failingOn (c : Change) : Nat → Change → Option Error := fun _ d =>
  if d = c then some (.run (.store c.path "no space left")) else none

theorem failingOn_self (c : Change) (n : Nat) : failingOn c n c ≠ none := by
  rw [failingOn, if_pos rfl]
  exact Option.some_ne_none _

theorem failingOn_of_ne {c d : Change} (h : d ≠ c) (n : Nat) : failingOn c n d = none := if_neg h

/-- Changes fail where one among them always does. -/
theorem exists_run_applyAll_faulty_eq_error {changes : List Change} {c : Change}
    (hc : c ∈ changes) (hfault : ∀ n, fault? n c ≠ none) (w : Nat × σ) :
    ∃ e w', ((behind.faulty fault?).applyAll changes).run w = (.error e, w') := by
  induction changes generalizing w with
  | nil => cases hc
  | cons d changes ih =>
    obtain ⟨n, s⟩ := w
    rw [run_applyAll_cons, run_apply_faulty]
    cases hd : fault? n d with
    | some e => exact ⟨e, _, rfl⟩
    | none =>
      have hrest : c ∈ changes :=
        (List.mem_cons.1 hc).resolve_left fun heq => hfault n (heq ▸ hd)
      cases (behind.apply d).run s with
      | mk made s' => cases made with
        | error e => exact ⟨e, _, rfl⟩
        | ok => exact ih hrest (n + 1, s')

/-- What a change keeps of the store behind, it keeps if it may fail. -/
theorem apply_faulty_induction {Inv : σ → Prop} {c : Change}
    (h : ∀ s, Inv s → Inv ((behind.apply c).run s).2) {w : Nat × σ} (hw : Inv w.2) :
    Inv (((behind.faulty fault?).apply c).run w).2.2 := by
  obtain ⟨n, s⟩ := w
  rw [run_apply_faulty]
  split
  · exact hw
  · exact h s hw

end Store

end Scaffold
