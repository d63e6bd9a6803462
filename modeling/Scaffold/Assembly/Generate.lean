import Scaffold.Assembly.Application
import Scaffold.Project.Check
import Scaffold.Store.Basic

/-!
# Generation

An application is first planned as a whole and then written. What is there already is left alone
unless the run is told to write into it; if a run fails on the way, it removes what it has begun,
but only where nothing was before.
-/

namespace Scaffold

/-- How a run is to be made. -/
structure GenerateOptions where
  policy : RelationPolicy := .permissive
  /-- Whether to write into a directory that is there. -/
  force : Bool := false
  deriving DecidableEq, Repr

/-- The application of a project, from the base code as far as it could be loaded. The strict policy
asks for a project without errors. -/
def plan (loaded : Except Error BaseCode) (p : Project) (policy : RelationPolicy) :
    Except Error Application := do
  let base ← loaded
  if policy = .strict then
    match Issue.firstError? (p.check policy) with
    | some cause => throw (.project cause)
    | none => pure ()
  (Application.assemble p policy base).mapError .project

/-- The changes that make an entry of a tree below `root`. -/
def TreeEntry.changes (root : Path) : TreeEntry → List Change
  | directory path => [.createDirectory (root.join path.path)]
  | file path content =>
    let target := root.join path.path
    (target.parent?.map .createDirectory).toList ++ [.writeFile target content]

/-- The changes that make a tree below `root`, in order. -/
def OutputTree.changes (t : OutputTree) (root : Path) : List Change :=
  .createDirectory root :: t.entries.flatMap (TreeEntry.changes root)

/-- Makes the changes of a run at `root`, unless there is something and `force` is off. Where
nothing was before, a run that fails removes its beginnings; whether that succeeds is not asked. -/
def Store.write {m : Type → Type} [Monad m] (store : Store m) (changes : List Change) (root : Path)
    (force : Bool) : m (Except Error Unit) := do
  let existed ← store.has root
  if existed && !force then return .error (.run (.projectExists root))
  match ← store.applyAll changes with
  | .ok () => return .ok ()
  | .error e =>
    unless existed do discard (store.removeDirectory root)
    return .error e

/-- What a run has made. -/
structure Report where
  project : String
  root : Path
  entities : Nat
  files : Nat
  directories : Nat
  unresolvedParents : List (String × String)
  withoutInput : List (String × String)
  deriving DecidableEq, Repr

/-- The report on an application that was written below `root`. -/
def Application.report (a : Application) (p : Project) (root : Path) : Report where
  project := p.name
  root
  entities := p.entities.length
  files := a.tree.files.length
  directories := a.tree.directories.length
  unresolvedParents := a.unresolvedParents
  withoutInput := a.withoutInput

/-- Plans an application and writes it below `root`. -/
def generate {m : Type → Type} [Monad m] (store : Store m) (loaded : Except Error BaseCode)
    (p : Project) (root : Path) (options : GenerateOptions) : m (Except Error Report) := do
  match plan loaded p options.policy with
  | .error e => return .error e
  | .ok application =>
    match ← store.write (application.tree.changes root) root options.force with
    | .error e => return .error e
    | .ok () => return .ok (application.report p root)

end Scaffold
