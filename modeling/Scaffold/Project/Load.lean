import Scaffold.Error.Run
import Scaffold.Json.Record
import Scaffold.Json.Value
import Scaffold.Project.Basic

/-!
# Project documents

A project is written as a JSON document: an object with the names and, under `data`, the list of
the entities. It is loaded from the text of a file; whatever is wrong is reported with the path
of the file.
-/

namespace Scaffold

open Json

/-- The document of a field. -/
def Field.toJson (f : Field) : Value :=
  .object <|
    [("name", .string f.name), ("type", .string f.type.word), ("required", .bool f.required),
      ("in_list", .bool f.inList)] ++
    (f.component?.map fun component => ("component", .string component)).toList

/-- The document of an entity. The parents are left out where there is none. -/
def Entity.toJson (e : Entity) : Value :=
  .object <|
    [("name", .string e.name), ("name_singular", .string e.singular),
      ("structure", .array (e.fields.map Field.toJson))] ++
    (if e.parents.isEmpty then [] else [("child_of", .array (e.parents.map .string))])

/-- The document of a project. -/
def Project.toJson (p : Project) : Value :=
  .object <|
    ("name", .string p.name) ::
    (p.camelName?.map fun name => ("nameCamelCase", .string name)).toList ++
    [("data", .object [("objects", .array (p.entities.map Entity.toJson))])]

/-- How a field is read. -/
def Field.form : RecordForm Field where
  name := "struct Field"
  members := [
    ⟨"name", true, (fun name f => { f with name }) <$> string⟩,
    ⟨"type", true, (fun word f => { f with type := .ofWord word }) <$> variant⟩,
    ⟨"required", false, (fun required f => { f with required }) <$> bool⟩,
    ⟨"in_list", false, (fun inList f => { f with inList }) <$> bool⟩,
    ⟨"component", false, (fun component? f => { f with component? }) <$> optional string⟩]
  start := { name := "", type := .unknown }

/-- How an entity is read. -/
def Entity.form : RecordForm Entity where
  name := "struct ObjectSpec"
  members := [
    ⟨"name", true, (fun name e => { e with name }) <$> string⟩,
    ⟨"name_singular", true, (fun singular e => { e with singular }) <$> string⟩,
    ⟨"structure", false, (fun fields e => { e with fields }) <$> list Field.form.read⟩,
    ⟨"child_of", false, (fun parents e => { e with parents }) <$> list string⟩]
  start := { name := "", singular := "" }

/-- How the data of a project are read. -/
def Project.dataForm : RecordForm (List Entity) where
  name := "struct ProjectData"
  members := [⟨"objects", false, (fun entities _ => entities) <$> list Entity.form.read⟩]
  start := []

/-- How a project is read. -/
def Project.form : RecordForm Project where
  name := "struct Project"
  members := [
    ⟨"name", true, (fun name p => { p with name }) <$> string⟩,
    ⟨"nameCamelCase", false, (fun camelName? p => { p with camelName? }) <$> optional string⟩,
    ⟨"data", false, (fun entities p => { p with entities }) <$> dataForm.read⟩]
  start := { name := "" }

/-- The text of a project's document. -/
def Project.text (p : Project) : String := p.toJson.compact

/-- The project that a text describes. -/
def Project.parse (text : String) : Except Failure Project := Json.parse form.read text

/-- The project that a text describes, which came from `origin`. -/
def Project.ofText (origin : Path) (text : String) : Except Error Project :=
  (Project.parse text).mapError fun failure => .run (.projectLoad origin failure.message)

/-- The project in the file at `origin`, given its text or why it could not be read. -/
def Project.load (origin : Path) (read : Except String String) : Except Error Project := do
  let text ← read.mapError fun reason => .run (.projectLoad origin reason)
  Project.ofText origin text

end Scaffold
