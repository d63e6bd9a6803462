import Scaffold.Error.Run

/-!
# Stores

A store is a place that applications are written to, given by what it can do. Nothing is assumed of
how it answers.
-/

namespace Scaffold

/-- The operations of a place that applications are written to. -/
structure Store (m : Type → Type) where
  /-- Makes a directory and those it lies in. -/
  createDirectory : Path → m (Except Error Unit)
  /-- Writes a file, in the place of one that is there. -/
  writeFile : Path → String → m (Except Error Unit)
  /-- Whether there is anything at a path. -/
  has : Path → m Bool
  /-- Removes a directory with all that is in it. -/
  removeDirectory : Path → m (Except Error Unit)

/-- One change of a store. -/
inductive Change where
  | createDirectory (path : Path)
  | writeFile (path : Path) (content : String)
  | removeDirectory (path : Path)
  deriving DecidableEq, Repr

namespace Store

variable {m : Type → Type}

/-- Makes a change. -/
def apply (store : Store m) : Change → m (Except Error Unit)
  | .createDirectory path => store.createDirectory path
  | .writeFile path content => store.writeFile path content
  | .removeDirectory path => store.removeDirectory path

/-- Makes changes one after the other up to the first that fails. -/
def applyAll [Monad m] (store : Store m) : List Change → m (Except Error Unit)
  | [] => pure (.ok ())
  | change :: rest => do
    match ← store.apply change with
    | .ok () => store.applyAll rest
    | .error e => pure (.error e)

/-- A store whose operations are carried out by way of another monad. -/
def lifted {n : Type → Type} (lift : {α : Type} → n α → m α) (store : Store n) : Store m where
  createDirectory p := lift (store.createDirectory p)
  writeFile p content := lift (store.writeFile p content)
  has p := lift (store.has p)
  removeDirectory p := lift (store.removeDirectory p)

end Store

end Scaffold
