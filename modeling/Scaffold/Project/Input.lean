import Scaffold.Project.Basic

/-!
# Form inputs

Which input of an edit form a field gets. The type decides, except that the widget `textarea` turns
a field of a text-like or unknown type into a text area.
-/

namespace Scaffold

/-- The kind of input that stands for a field in an edit form. -/
inductive InputKind where
  | text
  | number
  | textArea
  | fileImage
  /-- No input is known for the field. -/
  | unknown
  deriving DecidableEq, Repr

/-- The word for a kind of input. -/
def InputKind.word : InputKind → String
  | text => "text"
  | number => "number"
  | textArea => "textarea"
  | fileImage => "file-image"
  | unknown => "unknown"

namespace Field

/-- Text-like types without the widget `textarea`. -/
def isText (f : Field) : Bool :=
  [.text, .string, .email, .password, .date, .url].contains f.type && !f.asksFor "textarea"

/-- Numeric types. -/
def isNumber (f : Field) : Bool := [.number, .integer, .float].contains f.type

/-- The type `textarea`, and any type with that widget. -/
def isTextArea (f : Field) : Bool := f.type == .textarea || f.asksFor "textarea"

/-- The kind of input for a field; where several fit, the first of this order is taken. -/
def inputKind (f : Field) : InputKind :=
  if f.isText then .text
  else if f.isNumber then .number
  else if f.isTextArea then .textArea
  else if f.type == .fileImage then .fileImage
  else .unknown

/-- The `type` attribute of a text input: the widget asked for, else what the type suggests. -/
def inputType (f : Field) : String :=
  match f.component? with
  | some component => component
  | none =>
    match f.type with
    | .email => "email"
    | .password => "password"
    | .date => "date"
    | .url => "url"
    | _ => "text"

end Field

end Scaffold
