import Scaffold.Path.Contained
import Scaffold.Template.Vocabulary

/-!
# Errors of a project and its base code

The causes for which a description and a base code yield no application, with their wording. Each
concerns somebody; the command line turns that category into an exit code.
-/

namespace Scaffold

/-- What an error is about. -/
inductive Category where
  /-- The description or the base code is at fault. -/
  | validation
  /-- Something that was named is not there. -/
  | notFound
  | configuration
  /-- The machine or the program is at fault. -/
  | internal
  deriving DecidableEq, Repr

/-- The labels of an entity that no two entities may share. -/
inductive EntityLabel where
  | name
  | singular
  deriving DecidableEq, Repr

/-- The word for a label in a description. -/
def EntityLabel.word : EntityLabel → String
  | name => "name"
  | singular => "name_singular"

/-- Why a description and a base code yield no application. -/
inductive ProjectError where
  | invalidProject (detail : String)
  | duplicateEntity (label : EntityLabel) (value : String)
  /-- An entity belongs to one that is not declared. -/
  | unresolvedRelation (entity parent : String)
  /-- No value was given for a slot that a base file declares. -/
  | missingSlot (file : BaseFile) (slot : Slot)
  /-- A token was left over in a generated file. -/
  | unresolvedToken (file token : String)
  | missingBaseFile (path : String)
  | duplicatePath (path : String)
  | absolutePath (path : String)
  | escapingPath (path : String)
  deriving DecidableEq, Repr

namespace ProjectError

/-- The wording of an error. -/
def message : ProjectError → String
  | invalidProject detail => "Invalid project: " ++ detail
  | duplicateEntity label value =>
    "Duplicate object " ++ label.word ++ " '" ++ value ++ "'"
  | unresolvedRelation entity parent =>
    "Object '" ++ entity ++ "' is a child of '" ++ parent ++ "', which is not declared"
  | missingSlot file slot =>
    "Base file '" ++ file.path ++ "' declares placeholder '" ++ slot.name ++
      "' but no value was supplied"
  | unresolvedToken file token =>
    "Placeholder '" ++ Template.delimited token ++ "' survived substitution in '" ++ file ++ "'"
  | missingBaseFile path => "Base code is missing required file: " ++ path
  | duplicatePath path => "Duplicate path in generated output: " ++ path
  | absolutePath path => "Absolute paths not allowed: " ++ path
  | escapingPath path => "Generated path leaves the output directory: " ++ path

/-- What a user may do about an error. -/
def suggestions : ProjectError → List String
  | invalidProject detail => ["Check the project description file", "Details: " ++ detail]
  | duplicateEntity label value =>
    ["Two objects share the " ++ label.word ++ " '" ++ value ++ "'",
      "Object names and singular names must be unique"]
  | unresolvedRelation entity parent =>
    ["Declare an object named '" ++ parent ++ "'",
      "Or remove '" ++ parent ++ "' from the child_of list of '" ++ entity ++ "'",
      "Run without --strict to skip unresolved relations"]
  | missingBaseFile path =>
    ["The base code directory has no '" ++ path ++ "'",
      "Omit --templates to use the bundled base code"]
  | escapingPath path =>
    ["'" ++ path ++ "' would be written outside the output directory",
      "Object names must not contain '..' or path separators"]
  | unresolvedToken _ token =>
    ["Base code uses an unknown placeholder '" ++ token ++ "'",
      "Remove it or replace it with one of the supported placeholders"]
  | missingSlot .. | duplicatePath _ | absolutePath _ =>
    ["This is likely a bug in crudgen, please report it"]

/-- The category of an error. -/
def category : ProjectError → Category
  | invalidProject _ | duplicateEntity .. | unresolvedRelation .. | unresolvedToken ..
  | escapingPath _ => .validation
  | missingBaseFile _ => .notFound
  | missingSlot .. | duplicatePath _ | absolutePath _ => .internal

/-- The error for a path that is not contained. -/
def ofEscape (p : Path) : Path.Escape → ProjectError
  | .absolute => absolutePath p.text
  | .climbs => escapingPath p.text

end ProjectError

namespace ContainedPath

/-- The contained path with the given text. -/
def ofText (text : String) : Except ProjectError ContainedPath :=
  (ofPath? ⟨text⟩).mapError (ProjectError.ofEscape ⟨text⟩)

/-- A contained path with a further text behind it. -/
def joinText (p : ContainedPath) (text : String) : Except ProjectError ContainedPath :=
  (p.join ⟨text⟩).mapError (ProjectError.ofEscape ⟨text⟩)

end ContainedPath

end Scaffold
