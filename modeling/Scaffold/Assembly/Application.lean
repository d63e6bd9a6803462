import Scaffold.Assembly.Module
import Scaffold.Assembly.Tree
import Scaffold.Fragment.Aggregate

/-!
# Applications

An application is made of the shared files of the base code, three of which gather a block of every
entity, and of the modules of the entities. What was left out on the way is noted beside the tree.
-/

namespace Scaffold

/-- The block that an entity adds to an aggregate. -/
def Aggregate.block : Aggregate → Entity → String
  | index => Fragment.scriptIncludes
  | states => Fragment.routeStates
  | sidebar => Fragment.menuEntry

/-- The blocks of all entities, as the value of the aggregate's slot. -/
def Aggregate.filling (entities : List Entity) (aggregate : Aggregate) : Filling :=
  .ofList [(aggregate.slot, String.join (entities.map aggregate.block))]

namespace ContainedPath

/-- The aggregate that stands at a path of the base code. -/
def aggregate? (p : ContainedPath) : Option Aggregate :=
  Aggregate.all.find? fun a => p.path.same ⟨(BaseFile.aggregate a).path⟩

/-- Whether the names of the application are put into a file: into pages at the top and the views of
the layout, and into the scripts of the application and of its start page. -/
def takesAppName (p : ContainedPath) : Bool :=
  let inside (directory : String) : Bool := p.path.parent.same ⟨directory⟩
  match p.path.extension? with
  | some "html" => inside "" || inside "app/components/layout/views"
  | some "js" => inside "app" || inside "app/components/home"
  | _ => false

end ContainedPath

/-- A text with the bare words `angularAppName` and `appName` replaced by the names of a project. -/
def Project.putNames (p : Project) (text : String) : String :=
  String.ofList <| Text.replaceTokens
    [("angularAppName".toList, p.camelName.toList), ("appName".toList, p.name.toList)] text.toList

/-- An application before it is written. -/
structure Application where
  tree : OutputTree
  /-- Entities with the parents they have that are not declared. -/
  unresolvedParents : List (String × String) := []
  /-- Entities with their fields that have no input. -/
  withoutInput : List (String × String) := []
  deriving DecidableEq

namespace Application

/-- Whether nothing was left out. -/
def isClean (a : Application) : Bool := a.unresolvedParents.isEmpty && a.withoutInput.isEmpty

/-- A shared file of the base code as it stands in the application. -/
def sharedFile (p : Project) (path : ContainedPath) (source : String) :
    Except ProjectError (ContainedPath × String) := do
  let text := if path.takesAppName then p.putNames source else source
  match path.aggregate? with
  | none => return (path, text)
  | some aggregate =>
    let residual ← (BaseFile.aggregate aggregate).render text (aggregate.filling p.entities)
    return (path, ← residual.finish path)

/-- The directories that files lie in, each once, in the order of the paths. -/
def directoriesOf (files : List (ContainedPath × String)) : List ContainedPath :=
  let all := files.flatMap fun f => f.1.directories
  (all.foldl (fun found d => found.insertNew d.path d) PathMap.empty).entries.map (·.2)

/-- The tree of the given files: first their directories, then the files as they come. -/
def treeOf (files : List (ContainedPath × String)) : OutputTree where
  entries := (directoriesOf files).map .directory ++ files.map fun f => .file f.1 f.2

/-- The application that a project and a base code give. -/
def assemble (p : Project) (policy : RelationPolicy) (base : BaseCode) :
    Except ProjectError Application := do
  base.ensureComplete
  let shared ← base.sharedFiles.mapM fun f => sharedFile p f.1 f.2
  let modules ← p.entities.mapM (Module.assemble p policy base)
  let tree := treeOf (shared ++ modules.flatMap fun m => m.files.map fun f => (f.path, f.content))
  tree.validate
  return {
    tree
    unresolvedParents := modules.flatMap fun m => m.unresolvedParents.map (m.entity.name, ·)
    withoutInput := modules.flatMap fun m => m.withoutInput.map (m.entity.name, ·) }

end Application

end Scaffold
