import Scaffold.Assembly.Generate
import Scaffold.BaseCode.Bundled
import Scaffold.Command.Console
import Scaffold.Project.Load

/-!
# Generating and checking

The tasks that deal with a project: to generate its application, to show what would be generated,
and to check it.
-/

namespace Scaffold.Command

/-! ## Generating -/

/-- The directory that an application is put into: the one asked for, else the one of the settings,
else one named after the project. -/
def GenerateRequest.root (r : GenerateRequest) (settings : Settings) (p : Project) : Path :=
  (r.output? <|> settings.output?).getD ⟨p.camelName⟩

/-- The directory that base code is read from, if it is not the bundled one. -/
def GenerateRequest.base? (r : GenerateRequest) (settings : Settings) : Option Path :=
  r.templates? <|> settings.templates?

/-- How the application of a request is to be made. -/
def GenerateRequest.options (r : GenerateRequest) (settings : Settings) : GenerateOptions :=
  { policy := .ofStrict (r.strict || settings.strict), force := r.force }

/-- What was left out of an application, as warnings. -/
def omissions (unresolvedParents withoutInput : List (String × String)) : List String :=
  (unresolvedParents.map fun (entity, parent) =>
    entity ++ ": parent '" ++ parent ++ "' is not declared; select omitted") ++
  withoutInput.map fun (entity, field) =>
    entity ++ "." ++ field ++ ": no input form known for this field type; field omitted"

/-- What a generation has made or would make, for other programs. -/
structure Summary where
  project : String
  root : Path
  dryRun : Bool
  files : List String
  directories : Nat
  unresolvedParents : List (String × String)
  withoutInput : List (String × String)
  deriving DecidableEq, Repr

namespace Summary

/-- A summary as JSON. -/
def toJson (s : Summary) : Json.Value :=
  let pairs (ps : List (String × String)) : Json.Value :=
    .array (ps.map fun p => .array [.string p.1, .string p.2])
  .object [
    ("project", .string s.project),
    ("output", .string s.root.text),
    ("dry_run", .bool s.dryRun),
    ("files", .array (s.files.map .string)),
    ("directories", .number s.directories),
    ("unresolved_relations", pairs s.unresolvedParents),
    ("unclassified_fields", pairs s.withoutInput)]

/-- The summary of a plan. -/
def ofPlan (p : Project) (root : Path) (a : Application) : Summary where
  project := p.name
  root
  dryRun := true
  files := a.tree.files.map fun f => f.1.display
  directories := a.tree.directories.length
  unresolvedParents := a.unresolvedParents
  withoutInput := a.withoutInput

/-- The summary of what was made. The files are not listed. -/
def ofReport (r : Report) : Summary where
  project := r.project
  root := r.root
  dryRun := false
  files := []
  directories := r.directories
  unresolvedParents := r.unresolvedParents
  withoutInput := r.withoutInput

end Summary

/-- An entry of a tree as a plan lists it. -/
def entryLine : TreeEntry → String
  | .directory path => path.display ++ "/"
  | .file path _ => path.display

/-! ## Checking -/

/-- The issues of a project as JSON. -/
def issuesJson (issues : List Issue) : Json.Value :=
  .object [
    ("issues", .array <| issues.map fun i => .object
      [("message", .string i.cause.message), ("severity", .string i.severity.word)]),
    ("valid", .bool (Issue.causes issues .error).isEmpty)]

/-- The sign of a severity. -/
def severitySign : Severity → Sign
  | .warning => .warning
  | .error => .error

namespace Session

variable {m : Type → Type} [Monad m]

/-- Passes on an error of the library as a failure of the run. -/
def orFail {α : Type} (result : Except Error α) : ExceptT Failure m α :=
  match result with
  | .ok a => pure a
  | .error e => throw (.generation e)

/-- Loads the project in a file. -/
def loadProject (s : Session m) (path : Path) : ExceptT Failure m Project := do
  unless ← s.host.isFile path do throw (.projectMissing path)
  orFail (Project.load path (← s.host.readText path))

/-- Loads the base code of a request, as far as that succeeds. -/
def loadBase (s : Session m) (r : GenerateRequest) : m (Except Error BaseCode) :=
  match r.base? s.settings with
  | none => pure (.ok Bundled.baseCode)
  | some root => do return BaseCode.ofDirectory root (← s.host.found? root)

/-- Warns of what was left out. -/
def warnOf (s : Session m) (unresolvedParents withoutInput : List (String × String)) :
    ExceptT Failure m Unit :=
  (omissions unresolvedParents withoutInput).forM (s.say .warning)

/-- Shows what would be generated. -/
def showPlan (s : Session m) (p : Project) (root : Path) (a : Application) :
    ExceptT Failure m Unit := do
  s.say .info ("Dry run: would create '" ++ p.name ++ "' at " ++ root.text)
  a.tree.entries.forM fun entry => s.tell (s.console.detail (entryLine entry))
  if ← s.host.store.has root then
    s.say .warning (root.text ++ " already exists; generation would need --force")
  s.warnOf a.unresolvedParents a.withoutInput
  s.document (Summary.ofPlan p root a).toJson

/-- Shows what was generated. -/
def showReport (s : Session m) (r : Report) : ExceptT Failure m Unit := do
  s.say .success ("Project '" ++ r.project ++ "' generated: " ++ toString r.entities ++
    " object(s), " ++ toString r.files ++ " file(s) in " ++ r.root.text)
  s.warnOf r.unresolvedParents r.withoutInput
  s.document (Summary.ofReport r).toJson
  s.tell ""
  s.tell "Next steps:"
  s.tell ("  open " ++ r.root.text ++ "/index.html")

/-- Generates the application of a project, or shows what would be generated. -/
def generate (s : Session m) (r : GenerateRequest) : ExceptT Failure m Unit := do
  let p ← s.loadProject r.project
  let root := r.root s.settings p
  let options := r.options s.settings
  let base ← s.loadBase r
  if r.dryRun then s.showPlan p root (← orFail (plan base p options.policy))
  else
    let made ← (Scaffold.generate s.host.store base p root options : m (Except Error Report))
    s.showReport (← orFail made)

/-- Checks a project. -/
def check (s : Session m) (path : Path) (strict : Bool) : ExceptT Failure m Unit := do
  let p ← s.loadProject path
  let issues := p.check (.ofStrict (strict || s.settings.strict))
  issues.forM fun i => s.say (severitySign i.severity) i.cause.message
  s.document (issuesJson issues)
  let count (severity : Severity) : Nat := (Issue.causes issues severity).length
  if 0 < count .error then throw (.checkFailed (count .error))
  s.say .success ("'" ++ p.name ++ "' is valid: " ++ toString p.entities.length ++
    " object(s), " ++ toString (count .warning) ++ " warning(s)")

end Session

end Scaffold.Command
