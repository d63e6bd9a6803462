import Scaffold.Text.Word

/-!
# Project descriptions

A project is a display name and the list of its entities; an entity is a collection with a schema
and the names of the entities it belongs to. Nothing here checks a description: names may be empty,
repeated or dangling.
-/

namespace Scaffold

/-- The declared type of a field. -/
inductive FieldType where
  | text
  | string
  | email
  | password
  | date
  | url
  | number
  | integer
  | float
  | textarea
  | fileImage
  /-- Any type outside the vocabulary. -/
  | unknown
  deriving DecidableEq, Repr, Inhabited

namespace FieldType

/-- Every type, in the order of declaration. -/
def all : List FieldType :=
  [text, string, email, password, date, url, number, integer, float, textarea, fileImage, unknown]

/-- The word for a type in a description. -/
def word : FieldType → String
  | text => "text"
  | string => "string"
  | email => "email"
  | password => "password"
  | date => "date"
  | url => "url"
  | number => "number"
  | integer => "integer"
  | float => "float"
  | textarea => "textarea"
  | fileImage => "file-image"
  | unknown => "unknown"

/-- The type that a word of a description names; a word of no type names the unknown one. -/
def ofWord (w : String) : FieldType := (all.find? fun t => t.word == w).getD unknown

theorem ofWord_word (t : FieldType) : ofWord t.word = t := by cases t <;> decide

end FieldType

/-- One attribute of an entity's schema. -/
structure Field where
  name : String
  type : FieldType
  required : Bool := false
  /-- Whether the list view shows the field. -/
  inList : Bool := false
  /-- The widget asked for, such as `textarea` or `color`. -/
  component? : Option String := none
  deriving DecidableEq, Repr, Inhabited

/-- Whether the field asks for the widget of the given name. -/
def Field.asksFor (f : Field) (component : String) : Bool := f.component? == some component

/-- A collection of the project; one module is generated from each. -/
structure Entity where
  /-- The plural name, which identifies the entity. -/
  name : String
  singular : String
  fields : List Field := []
  /-- The names of the entities that this one belongs to. -/
  parents : List String := []
  deriving DecidableEq, Repr, Inhabited

namespace Entity

/-- The fields that the list view shows. -/
def listedFields (e : Entity) : List Field := e.fields.filter (·.inList)

/-- The entity with a further field. -/
def withField (e : Entity) (f : Field) : Entity := { e with fields := e.fields ++ [f] }

/-- The entity with a further parent. -/
def withParent (e : Entity) (name : String) : Entity := { e with parents := e.parents ++ [name] }

end Entity

/-- The description that an application is generated from. -/
structure Project where
  /-- The display name. -/
  name : String
  /-- The camel-cased name, where the description gives one. -/
  camelName? : Option String := none
  entities : List Entity := []
  deriving DecidableEq, Repr, Inhabited

namespace Project

/-- The camel-cased name: the one given, unless it is missing or empty, else derived from the
display name. -/
def camelName (p : Project) : String :=
  match p.camelName? with
  | some name => if name.isEmpty then camelCased p.name else name
  | none => camelCased p.name

/-- The first entity of the given plural name. -/
def entity? (p : Project) (name : String) : Option Entity := p.entities.find? fun e => e.name == name

/-- The project with a further entity. -/
def withEntity (p : Project) (e : Entity) : Project := { p with entities := p.entities ++ [e] }

end Project

end Scaffold
