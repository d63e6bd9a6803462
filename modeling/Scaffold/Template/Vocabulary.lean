import Scaffold.Project.Basic
import Scaffold.Template.Token

/-!
# The vocabulary of the base code

The base code is a set of template files. Eight of them have a part of their own in an application:
five are the models of an entity's files, three gather something of every entity. A file declares
slots, which are filled with generated fragments, and the five model files may use name codes, which
stand for the names of the entity and of the application.
-/

namespace Scaffold

/-- A slot of a base file, filled with generated fragments. -/
inductive Slot where
  | headerFields
  | listFields
  | formFields
  | foreignSelectsFields
  | states
  | menuItems
  | insertScripts
  | injectOtherServices
  | otherServices
  | getForeignObjects
  | foreignFunctionsCall
  deriving DecidableEq, Repr

namespace Slot

/-- Every slot. -/
def all : List Slot :=
  [headerFields, listFields, formFields, foreignSelectsFields, states, menuItems, insertScripts,
    injectOtherServices, otherServices, getForeignObjects, foreignFunctionsCall]

/-- The name that a template calls a slot by. -/
def name : Slot → String
  | headerFields => "headerFields"
  | listFields => "listFields"
  | formFields => "formFields"
  | foreignSelectsFields => "foreignSelectsFields"
  | states => "states"
  | menuItems => "menuItems"
  | insertScripts => "insertScripts"
  | injectOtherServices => "injectOtherServices"
  | otherServices => "otherServices"
  | getForeignObjects => "getForeignObjects"
  | foreignFunctionsCall => "foreignFunctionsCall"

/-- The token of a slot. -/
def token (s : Slot) : String := Template.delimited s.name

end Slot

/-- A token that stands for a name. -/
inductive NameCode where
  /-- The camel-cased name of the application. -/
  | appName
  /-- The singular name of the entity. -/
  | singular
  /-- The singular name with a capital. -/
  | singularCapital
  /-- The plural name of the entity. -/
  | plural
  /-- The plural name with a capital. -/
  | pluralCapital
  deriving DecidableEq, Repr

namespace NameCode

/-- Every name code, in the order in which they are replaced. -/
def all : List NameCode := [appName, singular, singularCapital, plural, pluralCapital]

/-- The name that a template calls a name code by. -/
def name : NameCode → String
  | appName => "angularAppName"
  | singular => "object"
  | singularCapital => "Object"
  | plural => "objects"
  | pluralCapital => "Objects"

/-- The token of a name code. -/
def token (c : NameCode) : String := Template.delimited c.name

/-- The name code that a template calls by the given name. -/
def ofName? (name : String) : Option NameCode := all.find? fun c => c.name == name

/-- The name that a code stands for in the files of an entity. -/
def value (entity : Entity) (app : String) : NameCode → String
  | appName => app
  | singular => entity.singular
  | singularCapital => capitalized entity.singular
  | plural => entity.name
  | pluralCapital => capitalized entity.name

end NameCode

/-- The model of one of the files of an entity. -/
inductive Model where
  | services
  | listController
  | editController
  | listView
  | editView
  deriving DecidableEq, Repr

/-- Every model, in the order in which the files of an entity are made. -/
def Model.all : List Model := [.services, .listController, .editController, .listView, .editView]

/-- A file that gathers a block of every entity. -/
inductive Aggregate where
  | index
  | states
  | sidebar
  deriving DecidableEq, Repr

namespace Aggregate

/-- Every aggregate. -/
def all : List Aggregate := [index, states, sidebar]

/-- The slot that the blocks go into. -/
def slot : Aggregate → Slot
  | index => .insertScripts
  | states => .states
  | sidebar => .menuItems

end Aggregate

/-- A base file that takes part in the generation; all other base files are only copied. -/
inductive BaseFile where
  | model (model : Model)
  | aggregate (aggregate : Aggregate)
  deriving DecidableEq, Repr

namespace BaseFile

/-- Every file that takes part, the models first. -/
def all : List BaseFile := Model.all.map model ++ Aggregate.all.map aggregate

/-- Where the file stands in the base code. -/
def path : BaseFile → String
  | model .services => "app/components/base/base.services.js"
  | model .listController => "app/components/base/base.controller.js"
  | model .editController => "app/components/base/base.edit.controller.js"
  | model .listView => "app/components/base/views/base.list.html"
  | model .editView => "app/components/base/views/base.edit.html"
  | aggregate .index => "index.html"
  | aggregate .states => "app/app.states.js"
  | aggregate .sidebar => "app/components/layout/views/sidebar.html"

/-- The slots that the file declares. -/
def slots : BaseFile → List Slot
  | model .services | model .listController => []
  | model .editController =>
    [.injectOtherServices, .otherServices, .getForeignObjects, .foreignFunctionsCall]
  | model .listView => [.headerFields, .listFields]
  | model .editView => [.formFields, .foreignSelectsFields]
  | aggregate file => [file.slot]

end BaseFile

end Scaffold
