import Scaffold.Assembly.Application
import Scaffold.Error.Run

/-!
# An assembly that makes its paths anew

An assembly makes paths on its way: those of the base files that it looks up, and those of the
directories that files lie in. It relies on them to be contained. Where they are made anew from
their texts, one that is not contained breaks the assembly off.
-/

namespace Scaffold

/-- Where the file of an entity stands that a base file is the model of; the others are no
models. -/
def BaseFile.placeOf? (e : Entity) : BaseFile → Except ProjectError (Option ContainedPath)
  | model m => some <$> m.path e
  | aggregate _ => .ok none

namespace Relying

/-- The content of a base file, looked up under the path that its text is relied on to be. -/
def content (base : BaseCode) (file : BaseFile) : Except Error String := do
  let path ← ContainedPath.relied file.path
  match base.content? path.path with
  | some content => .ok content
  | none => .error (.project (.missingBaseFile file.path))

def ensureComplete (base : BaseCode) : Except Error Unit :=
  BaseFile.all.forM fun file => discard (content base file)

/-- The file that a model gives for an entity. -/
def file (base : BaseCode) (app : String) (e : Entity) (relations : Relations) (model : Model) :
    Except Error ModuleFile := do
  let some path ← ((BaseFile.model model).placeOf? e).mapError .project
    | .error (.project (.invalidProject ((BaseFile.model model).path ++ " is not a module file")))
  let source ← content base (.model model)
  let residual ← ((BaseFile.model model).render source (model.filling e relations)).mapError .project
  return ⟨model, path, ← (residual.resolve e app path).mapError .project⟩

def module (p : Project) (policy : RelationPolicy) (base : BaseCode) (e : Entity) :
    Except Error Module := do
  let relations ← (Relations.expand p policy e).mapError .project
  let files ← Model.all.mapM (file base p.camelName e relations)
  return ⟨e, files, relations.unresolved, (Fragment.withoutInput e).map (·.name)⟩

/-- The directories that files lie in, as they are met on the way up from the files, each once. -/
def directoriesAbove (files : List (ContainedPath × String)) : PathSet :=
  let all := files.flatMap fun f =>
    f.1.path.parent.ancestors.takeWhile fun directory => !directory.text.isEmpty
  all.foldl (fun found directory => found.insertNew directory ()) .empty

def tree (files : List (ContainedPath × String)) : Except Error OutputTree := do
  let directories ← (directoriesAbove files).paths.mapM fun directory =>
    ContainedPath.relied directory.text
  return ⟨directories.map .directory ++ files.map fun f => .file f.1 f.2⟩

/-- The application that a project and a base code give, with every path made anew that is relied
on. -/
def application (p : Project) (policy : RelationPolicy) (base : BaseCode) :
    Except Error Application := do
  ensureComplete base
  let shared ← base.sharedFiles.mapM fun f =>
    (Application.sharedFile p f.1 f.2).mapError .project
  let modules ← p.entities.mapM (module p policy base)
  let tree ← tree (shared ++ modules.flatMap fun m => m.files.map fun f => (f.path, f.content))
  tree.validate.mapError .project
  return {
    tree
    unresolvedParents := modules.flatMap fun m => m.unresolvedParents.map (m.entity.name, ·)
    withoutInput := modules.flatMap fun m => m.withoutInput.map (m.entity.name, ·) }

end Relying

end Scaffold
