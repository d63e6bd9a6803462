import Scaffold.Store.Basic

/-!
# Watched stores

A watched store notes every call and can be told to refuse some changes before they reach the store
behind it.
-/

namespace Scaffold

/-- A call of a store. -/
inductive Call where
  | change (change : Change)
  | has (path : Path)
  deriving DecidableEq, Repr

/-- The kind of a change. -/
inductive ChangeKind where
  | createDirectory
  | writeFile
  | removeDirectory
  deriving DecidableEq, Repr

namespace Change

/-- The kind of a change. -/
def kind : Change → ChangeKind
  | createDirectory _ => .createDirectory
  | writeFile .. => .writeFile
  | removeDirectory _ => .removeDirectory

/-- Where the change is made. -/
def path : Change → Path
  | createDirectory path => path
  | writeFile path _ => path
  | removeDirectory path => path

end Change

/-- Changes that are refused: those of a kind at a place, with the reason that is given. -/
structure Refusal where
  kind : ChangeKind
  path : Path
  reason : String
  deriving DecidableEq, Repr

/-- Whether a refusal is about a change. -/
def Refusal.covers (r : Refusal) (c : Change) : Bool := r.kind == c.kind && r.path.same c.path

/-- The state of a watched store: that of the store behind it, the calls so far, and what
is refused. -/
structure Watch (σ : Type) where
  behind : σ
  calls : List Call := []
  refusals : List Refusal := []

namespace Watch

variable {σ : Type}

/-- Runs an operation of the store behind. -/
def pass {α : Type} (run : StateM σ α) : StateM (Watch σ) α := fun w =>
  let (a, behind) := run w.behind
  (a, { w with behind })

/-- Notes a change and makes it unless it is refused. -/
def change (store : Store (StateM σ)) (c : Change) : StateM (Watch σ) (Except Error Unit) := do
  modify fun w => { w with calls := w.calls ++ [.change c] }
  match (← get).refusals.find? fun r => r.covers c with
  | some r => return .error (.run (.store c.path r.reason))
  | none => pass (store.apply c)

/-- The watched store in front of another. -/
def store (behind : Store (StateM σ)) : Store (StateM (Watch σ)) where
  createDirectory p := change behind (.createDirectory p)
  writeFile p content := change behind (.writeFile p content)
  has p := do
    modify fun w => { w with calls := w.calls ++ [.has p] }
    pass (behind.has p)
  removeDirectory p := change behind (.removeDirectory p)

end Watch

end Scaffold
