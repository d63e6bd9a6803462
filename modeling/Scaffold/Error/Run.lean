import Scaffold.Error.Project
import Scaffold.Text.Quoted

/-!
# Errors of a run

What can go wrong around the generation itself, where files are read and written, and the error that
a caller sees in the end.
-/

namespace Scaffold

/-- Why a run failed outside the generation. -/
inductive RunError where
  /-- The place written to refused an operation. -/
  | store (path : Path) (reason : String)
  | projectLoad (path : Path) (reason : String)
  | baseCodeUnavailable (source reason : String)
  | validationFailed (detail : String)
  | projectExists (path : Path)
  | rollbackFailed (path : Path) (reason : String)
  deriving DecidableEq, Repr

namespace RunError

/-- The wording of an error. -/
def message : RunError → String
  | store path reason => "Filesystem error at " ++ path.text ++ ": " ++ reason
  | projectLoad path reason => "Failed to load project from " ++ path.text ++ ": " ++ reason
  | baseCodeUnavailable source reason =>
    "Failed to load base code from " ++ source ++ ": " ++ reason
  | validationFailed detail => "Validation failed: " ++ detail
  | projectExists path => "Output directory already exists: " ++ path.text
  | rollbackFailed path reason => "Rollback failed for " ++ path.text ++ ": " ++ reason

/-- What a user may do about an error. -/
def suggestions : RunError → List String
  | store path _ =>
    ["Failed to access: " ++ path.text, "Check that you have write permissions"]
  | projectLoad path _ =>
    ["Check that " ++ path.text ++ " exists and is valid JSON",
      "Expected shape: \x7b \"name\": ..., \"data\": \x7b \"objects\": [...] \x7d \x7d"]
  | baseCodeUnavailable source _ =>
    ["Check the base code directory: " ++ source, "Omit --templates to use the bundled base code"]
  | projectExists path =>
    ["Directory already exists: " ++ path.text, "Use --force to overwrite (destructive)",
      "Or choose a different output directory with --output"]
  | validationFailed _ | rollbackFailed .. => ["Check the error details above"]

/-- The category of an error. -/
def category : RunError → Category
  | store .. | rollbackFailed .. => .internal
  | projectLoad .. | validationFailed _ | projectExists _ => .validation
  | baseCodeUnavailable .. => .notFound

end RunError

/-- An error as a caller of a run sees it. -/
inductive Error where
  | project (cause : ProjectError)
  | run (cause : RunError)
  /-- Something that cannot happen did. -/
  | bug (detail : String)
  /-- A path that was relied on to be contained is not. The run stops at once and has nothing to
  suggest. -/
  | breach (path : Path)
  deriving DecidableEq, Repr

namespace Error

/-- The wording of an error. -/
def message : Error → String
  | project cause => "Domain error: " ++ cause.message
  | run cause => "Application error: " ++ cause.message
  | bug detail => "Internal error: " ++ detail ++ ". This is a bug, please report it."
  | breach path => "RelativePath must stay under the root: " ++ quotedPath path.text

/-- What a user may do about an error. -/
def suggestions : Error → List String
  | project cause => cause.suggestions
  | run cause => cause.suggestions
  | bug _ => ["This appears to be a bug in crudgen"]
  | breach _ => []

/-- The category of an error. -/
def category : Error → Category
  | project cause => cause.category
  | run cause => cause.category
  | bug _ | breach _ => .internal

/-- The wordings of the errors that an error goes back to, the nearest first. -/
def causes : Error → List String
  | project cause => [cause.message]
  | run cause => [cause.message]
  | bug _ | breach _ => []

/-- A failure that came from elsewhere, with what was being done. -/
def context (doing reason : String) : Error := bug (doing ++ ": " ++ reason)

end Error

namespace ContainedPath

/-- The contained path with a text that is relied on to be one. -/
def relied (text : String) : Except Error ContainedPath :=
  (ofPath? ⟨text⟩).mapError fun _ => .breach ⟨text⟩

end ContainedPath

end Scaffold
