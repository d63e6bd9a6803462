import Scaffold.Command.Console
import Scaffold.Settings.EnvironmentFile
import Scaffold.Settings.Location
import Scaffold.Text.Decoded
import Scaffold.Toml.Document

/-!
# Settings of a run

Reading the settings that hold in a run, and the tasks that make and show them.
-/

namespace Scaffold.Command

namespace Host

variable {m : Type → Type} [Monad m]

/-- The first of some paths at which there is a file. -/
def firstFile? (h : Host m) : List Path → m (Option Path)
  | [] => return none
  | p :: rest => do if ← h.isFile p then return some p else h.firstFile? rest

/-- The variables with those of the environment file in the nearest directory that has one, from
where one stands upwards. -/
def environment (h : Host m) (given : Environment) : m Environment := do
  let directories := (← h.here).ancestors
  match ← h.firstFile? (directories.map (·.join ⟨".env"⟩)) with
  | none => return given
  | some p =>
    match ← h.readBytes p with
    | .ok bytes => return EnvironmentFile.extend given (Text.textLines bytes)
    | .error _ => return given

/-- The layer of settings in a file. -/
def settingsIn (h : Host m) (p : Path) : ExceptT Failure m Settings.Layer := do
  match ← h.readBytes p with
  | .error reason => throw (.configuration (p.text ++ ": " ++ reason) true)
  | .ok bytes =>
    match Toml.parse (Text.decoded bytes) with
    | some layer => return layer
    | none => throw (.configuration (p.text ++ " is not a TOML document") true)

/-- The layer of settings in the file that was asked for, or else at the usual location. The file
that was asked for has to be there, if need be under its name with `.toml` behind it. -/
def settingsFile (h : Host m) (asked? : Option Path) (location : Path) :
    ExceptT Failure m Settings.Layer := do
  if let some p := asked? then
    unless ← h.store.has p do
      throw (.configuration ("config file not found: " ++ p.text) false)
  let p := asked?.getD location
  match ← h.firstFile? [p, ⟨p.text ++ ".toml"⟩], asked? with
  | some p, _ => h.settingsIn p
  | none, none => return []
  | none, some p =>
    throw (.configuration ("configuration file \"" ++ p.text ++ "\" not found") true)

/-- The settings that hold in a run: those of the variables over those of a file over the
defaults. -/
def settings (h : Host m) (env : Environment) (asked? : Option Path) (location : Path) :
    ExceptT Failure m Settings := do
  let file ← h.settingsFile asked? location
  match Settings.ofLayers? [file, Settings.ofEnvironment env] with
  | some settings => return settings
  | none => throw (.configuration "a value has a type that does not fit its key" true)

end Host

namespace Session

variable {m : Type → Type} [Monad m]

/-- Writes the default settings into a file. -/
def writeDefaults (s : Session m) (p : Path) : ExceptT Failure m Unit := do
  if let some parent := p.parent? then
    unless parent.text.isEmpty do
      match ← s.host.makeDirectories parent with
      | .ok () => pure ()
      | .error reason =>
        throw (.io ("Failed to create config directory '" ++ parent.text ++ "'") reason)
  match ← s.host.writeFile p (Settings.toToml {}) with
  | .ok () => pure ()
  | .error reason => throw (.io ("Failed to write config to '" ++ p.text ++ "'") reason)

/-- A path for other programs. -/
def pathJson (p : Path) : Json.Value := .object [("path", .string p.text)]

/-- Makes a file with the default settings. One that is there is kept, unless told otherwise. -/
def init (s : Session m) (force : Bool) : ExceptT Failure m Unit := do
  if (← s.host.store.has s.location) && !force then
    s.say .warning ("Config already exists at " ++ s.location.text ++
      "  (use --force to overwrite)")
  else
    s.writeDefaults s.location
    s.say .success ("Configuration created at " ++ s.location.text)
    s.document (pathJson s.location)

/-- Shows a setting. -/
def showSetting (s : Session m) (key : String) : ExceptT Failure m Unit := do
  match s.settings.value? key with
  | none => throw (.configuration ("Unknown config key: '" ++ key ++ "'") false)
  | some value =>
    s.tell (key ++ " = " ++ quoted value)
    s.document (.object [("key", .string key), ("value", .string value)])

/-- Shows all settings. -/
def listSettings (s : Session m) : ExceptT Failure m Unit := do
  if s.console.format = .json then s.document s.settings.toJson
  else
    s.tell (s.console.header "Current Configuration:")
    s.tell s.settings.toToml

/-- Shows where settings are kept. -/
def showLocation (s : Session m) : ExceptT Failure m Unit := do
  s.tell s.location.text
  s.document (pathJson s.location)

end Session

end Scaffold.Command
