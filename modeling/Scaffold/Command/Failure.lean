import Scaffold.Error.Run

/-!
# Failures of a command

What a user is told when a command fails, and the exit code that tells other programs.
-/

namespace Scaffold.Command

/-- Why a command failed. -/
inductive Failure where
  /-- A check found errors. -/
  | checkFailed (errors : Nat)
  | projectMissing (path : Path)
  /-- Settings are wrong; `found` tells that this was found where they were read. -/
  | configuration (detail : String) (found : Bool)
  | generation (cause : Error)
  /-- An operation on files or streams failed; `doing` is the reason itself or what was
  being done. -/
  | io (doing reason : String)
  deriving DecidableEq, Repr

namespace Failure

/-- The failure of a stream that a text could not be written to. -/
def stream (reason : String) : Failure := io reason reason

/-- The wording of a failure. -/
def message : Failure → String
  | checkFailed errors => "Project description has " ++ toString errors ++ " error(s)"
  | projectMissing path => "Project description not found: " ++ path.text
  | configuration detail _ => "Configuration error: " ++ detail
  | generation cause => "Generation failed: " ++ cause.message
  | io doing _ => "I/O error: " ++ doing

/-- The wordings of what a failure goes back to, the nearest first. -/
def causes : Failure → List String
  | checkFailed _ | projectMissing _ | configuration _ false => []
  | configuration detail true => [detail]
  | generation cause => cause.message :: cause.causes
  | io _ reason => [reason]

/-- What a user may do about a failure; `settings` is where settings are kept. -/
def suggestions (settings : Path) : Failure → List String
  | checkFailed _ =>
    ["Fix the errors listed above and run 'crudgen check' again",
      "Drop --strict to downgrade unresolved relations to warnings"]
  | projectMissing path =>
    ["No file at '" ++ path.text ++ "'", "Pass the path to a JSON project description"]
  | configuration .. =>
    ["Check your config file at " ++ settings.text,
      "Use 'crudgen init --force' to write a default config",
      "CRUDGEN_* environment variables also override config values"]
  | generation cause => cause.suggestions
  | io doing _ =>
    ["I/O operation failed: " ++ doing, "Check file permissions", "Check available disk space"]

/-- The category of a failure. -/
def category : Failure → Category
  | checkFailed _ => .validation
  | projectMissing _ => .notFound
  | configuration .. => .configuration
  | generation cause => cause.category
  | io .. => .internal

/-- The exit code of a failure. -/
def exitCode (f : Failure) : Nat :=
  match f.category with
  | .internal => 1
  | .validation => 2
  | .notFound => 3
  | .configuration => 4

end Failure

end Scaffold.Command
