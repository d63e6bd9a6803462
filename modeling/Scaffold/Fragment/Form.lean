import Scaffold.Project.Input
import Scaffold.Template.Vocabulary

/-!
# Form inputs and list columns

The fragments that stand for one field of an entity: its input in the edit form, its column in the
list. The inputs still hold name codes, since the names of the entity are put in later, together
with those of the rest of the file.
-/

namespace Scaffold.Fragment

/-- The parts of a tag that are not empty, with a space between them. -/
def spaced (parts : List String) : String := " ".intercalate (parts.filter (· ≠ ""))

/-- The mark of a required field. -/
def requiredMark (f : Field) : String := if f.required then "required=\"required\"" else ""

/-- The expression for the entity being edited. -/
def model : String := "vm." ++ NameCode.singular.token

/-- An input below its label. -/
def labeled (f : Field) (input : String) : String :=
  "\t<div class=\"form-group\">\n" ++
  "\t\t<label for=\"" ++ f.name ++ "\">" ++ capitalized f.name ++ "</label>\n" ++
  input ++
  "\t</div>\n\n"

/-- An `input` tag with the given attributes. -/
def inputTag (f : Field) (attributes : List String) : String :=
  "\t\t<input " ++ spaced attributes ++ " class=\"form-control\" ng-model=\"" ++ model ++ "." ++
    f.name ++ "\">\n"

/-- The input for a text. -/
def textInput (f : Field) : String :=
  labeled f (inputTag f [requiredMark f, "type=\"" ++ f.inputType ++ "\""])

/-- The input for a number. A field of the type `float` steps by hundredths. -/
def numberInput (f : Field) : String :=
  let step := if f.type = .float then "step=\"0.01\"" else ""
  labeled f (inputTag f [requiredMark f, step, "type=\"number\""])

/-- The input for a longer text. -/
def textAreaInput (f : Field) : String :=
  labeled f <|
    "\t\t<textarea " ++ spaced [requiredMark f, "class=\"form-control\""] ++ " ng-model=\"" ++
      model ++ "." ++ f.name ++ "\"></textarea>\n"

/-- A preview and an upload button, shown once the entity has been saved. -/
def fileImageInput (f : Field) : String :=
  "\t<div class=\"form-group\" ng-if=\"" ++ model ++ ".id\">\n" ++
  "\t\t<label for=\"" ++ f.name ++ "\">Image</label>\n" ++
  "\t\t<div>\n" ++
  "\t\t\t<img ngf-thumbnail=\"file || vm.config.UploadAddress + '/" ++ NameCode.plural.token ++
    "/' + " ++ model ++ "." ++ f.name ++ ".name\" width=\"150\">\n" ++
  "\t\t\t<div class=\"btn btn-default\" ngf-select=\"vm.uploadFile($file, '" ++ f.name ++
    "')\" ng-model=\"file\" ngf-pattern=\"'image/*'\" ngf-accept=\"'image/*'\">Select Files</div>\n" ++
  "\t\t</div>\n" ++
  "\t</div>\n\n"

/-- The input for a field, if one is known for it. -/
def input? (f : Field) : Option String :=
  match f.inputKind with
  | .text => some (textInput f)
  | .number => some (numberInput f)
  | .textArea => some (textAreaInput f)
  | .fileImage => some (fileImageInput f)
  | .unknown => none

/-- The inputs of an entity, in the order of its fields. -/
def inputs (e : Entity) : String := String.join (e.fields.filterMap input?)

/-- The fields of an entity that have no input. -/
def withoutInput (e : Entity) : List Field := e.fields.filter fun f => (input? f).isNone

/-- A column of the list. -/
structure Column where
  header : String
  body : String
  deriving DecidableEq, Repr

/-- The column of a field. -/
def column (e : Entity) (f : Field) : Column where
  header := "\t\t\t\t\t<th>" ++ capitalized f.name ++ "</th>\n"
  body := "\t\t\t\t\t<td><span>\x7b\x7b" ++ e.singular ++ "." ++ f.name ++ "\x7d\x7d</span></td>\n"

/-- The columns of an entity, one for each listed field. -/
def columns (e : Entity) : List Column := e.listedFields.map (column e)

end Scaffold.Fragment
