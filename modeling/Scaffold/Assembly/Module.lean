import Scaffold.BaseCode.Basic
import Scaffold.Fragment.Form
import Scaffold.Fragment.Relation
import Scaffold.Template.Residual

/-!
# The module of an entity

Five files are made for every entity, one from each model of the base code. Their slots are filled
from the fields and the relations of the entity, their paths and name codes come from its names.
-/

namespace Scaffold

namespace Entity

/-- The directory of the entity's files. -/
def directory (e : Entity) : String := "app/components/" ++ e.name

/-- The directory of the entity's views. -/
def viewsDirectory (e : Entity) : String := e.directory ++ "/views"

end Entity

namespace Model

/-- Where the file of an entity stands in an application, as its name spells it. -/
def location (e : Entity) : Model → String
  | services => e.directory ++ "/" ++ e.name ++ ".services.js"
  | listController => e.directory ++ "/" ++ e.name ++ ".controller.js"
  | editController => e.directory ++ "/" ++ e.name ++ ".edit.controller.js"
  | listView => e.viewsDirectory ++ "/" ++ e.name ++ ".list.html"
  | editView => e.viewsDirectory ++ "/" ++ e.name ++ ".edit.html"

/-- The path of the file of an entity, unless the entity's name leads out of the application. -/
def path (e : Entity) (model : Model) : Except ProjectError ContainedPath :=
  ContainedPath.ofText (model.location e)

/-- The fragments that fill the slots of the file of an entity. -/
def filling (e : Entity) (relations : Relations) : Model → Filling
  | services | listController => .empty
  | editController => .ofList [
      (.injectOtherServices, relations.injectedServices),
      (.otherServices, relations.boundServices),
      (.getForeignObjects, relations.fetchFunctions),
      (.foreignFunctionsCall, relations.fetchCalls)]
  | listView => .ofList [
      (.headerFields, String.join ((Fragment.columns e).map (·.header))),
      (.listFields, String.join ((Fragment.columns e).map (·.body)))]
  | editView => .ofList [
      (.formFields, Fragment.inputs e),
      (.foreignSelectsFields, relations.selects)]

end Model

/-- A file of an entity. -/
structure ModuleFile where
  model : Model
  path : ContainedPath
  content : String
  deriving DecidableEq

/-- The files of an entity, with what was left out of them. -/
structure Module where
  entity : Entity
  files : List ModuleFile
  /-- The parents that are not declared. -/
  unresolvedParents : List String
  /-- The names of the fields that have no input. -/
  withoutInput : List String
  deriving DecidableEq

namespace Module

/-- The content of the file made from a model. -/
def content? (m : Module) (model : Model) : Option String :=
  (m.files.find? fun f => f.model == model).map (·.content)

/-- The file that a model of the base code gives for an entity. -/
def file (base : BaseCode) (app : String) (e : Entity) (relations : Relations) (model : Model) :
    Except ProjectError ModuleFile := do
  let path ← model.path e
  let source ← base.content (.model model)
  let residual ← (BaseFile.model model).render source (model.filling e relations)
  return ⟨model, path, ← residual.resolve e app path⟩

/-- The module of an entity of a project. -/
def assemble (p : Project) (policy : RelationPolicy) (base : BaseCode) (e : Entity) :
    Except ProjectError Module := do
  let relations ← Relations.expand p policy e
  let files ← Model.all.mapM (file base p.camelName e relations)
  return ⟨e, files, relations.unresolved, (Fragment.withoutInput e).map (·.name)⟩

end Module

end Scaffold
