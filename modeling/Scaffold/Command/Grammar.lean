/-!
# The grammar of the command line

What may be written behind the name of the program: commands, the switches they know and the words
they ask for. Commands may have commands of their own.
-/

namespace Scaffold.Command

/-- What a switch takes. -/
inductive Takes where
  /-- Nothing. It may be given once. -/
  | nothing
  /-- Nothing. It may be given several times. -/
  | count
  /-- A text. -/
  | text (label : String)
  /-- A path, which may not be empty. -/
  | path (label : String)
  /-- One of some words. -/
  | choice (label : String) (words : List String)
  deriving DecidableEq, Repr

/-- A switch: its long name, possibly a letter, what it takes and what it does. -/
structure Switch where
  long : String
  short? : Option Char := none
  takes : Takes := .nothing
  about : String
  deriving DecidableEq, Repr

/-- Whether a value has to follow a switch. -/
def Takes.hasValue : Takes → Bool
  | nothing | count => false
  | _ => true

/-- Whether a text may be a value. -/
def Takes.allows : Takes → String → Bool
  | path _, value => value != ""
  | choice _ words, value => words.contains value
  | _, _ => true

/-- A command: its names, what it does, the switches it knows besides those that all know, the words
that it asks for, and its own commands. -/
inductive Spec where
  | mk (name : String) (alias? : Option String) (about : String) (switches : List Switch)
    (operands : List Takes) (commands : List Spec)

namespace Spec

/-- The name of a command. -/
def name : Spec → String
  | mk name .. => name

/-- Another name of a command. -/
def alias? : Spec → Option String
  | mk _ alias? .. => alias?

/-- What a command does. -/
def about : Spec → String
  | mk _ _ about .. => about

/-- The switches of a command besides those that all know. -/
def switches : Spec → List Switch
  | mk _ _ _ switches .. => switches

/-- The words that a command asks for. -/
def operands : Spec → List Takes
  | mk _ _ _ _ operands _ => operands

/-- The commands of a command. -/
def commands : Spec → List Spec
  | mk _ _ _ _ _ commands => commands

/-- The command of a command with a name. -/
def command? (s : Spec) (name : String) : Option Spec :=
  s.commands.find? fun c => c.name == name || c.alias? == some name

end Spec

/-! ## The grammar -/

/-- The words for formats. -/
def formatWords : List String := ["auto", "human", "plain", "json"]

/-- The words for shells. -/
def shellWords : List String := ["bash", "zsh", "fish", "power-shell", "elvish"]

/-- The switch that asks for help. -/
def helpSwitch : Switch := { long := "help", short? := some 'h', about := "Print help" }

/-- The switch that asks for the version. -/
def versionSwitch : Switch := { long := "version", short? := some 'V', about := "Print version" }

/-- The switches that every command knows. -/
def commonSwitches : List Switch := [
  { long := "verbose", short? := some 'v', takes := .count,
    about := "Increase verbosity (-v, -vv, -vvv)" },
  { long := "quiet", short? := some 'q', about := "Suppress non-error output" },
  { long := "no-color", about := "Disable colored output" },
  { long := "config", short? := some 'c', takes := .path "FILE",
    about := "Configuration file path" },
  { long := "output-format", takes := .choice "OUTPUT_FORMAT" formatWords,
    about := "Output format" },
  helpSwitch]

/-- The word for a project that commands ask for. -/
def projectOperand : Takes := .path "PROJECT"

/-- The command that generates an application. -/
def generateSpec : Spec :=
  .mk "generate" (some "g") "Generate an application" [
    { long := "output", short? := some 'o', takes := .path "DIR", about := "Output directory" },
    { long := "templates", short? := some 't', takes := .path "DIR",
      about := "Base code directory (default: bundled AngularJS base)" },
    { long := "strict", about := "Reject unresolved parent relations" },
    { long := "force", about := "Write into an existing output directory" },
    { long := "dry-run", about := "Show what would be created without creating" }]
    [projectOperand] []

/-- The command that checks a project. -/
def checkSpec : Spec :=
  .mk "check" none "Validate a project description"
    [{ long := "strict", about := "Treat unresolved relations as errors" }] [projectOperand] []

/-- The command that makes a file with settings. -/
def initSpec : Spec :=
  .mk "init" none "Initialise configuration"
    [{ long := "force", short? := some 'f', about := "Overwrite existing configuration" }] [] []

/-- The command that writes a completion script. -/
def completionsSpec : Spec :=
  .mk "completions" none "Generate shell completions" [] [.choice "SHELL" shellWords] []

/-- The commands that show settings. -/
def configSpec : Spec :=
  .mk "config" none "Configuration management" [] [] [
    .mk "get" none "Print the value of a configuration key" [] [.text "KEY"] [],
    .mk "list" none "Print all configuration values" [] [] [],
    .mk "path" none "Print the path to the active configuration file" [] [] []]

/-- The program as a whole. -/
def rootSpec : Spec :=
  .mk "crudgen" none "⚡ CRUD front-end generator" [versionSwitch] []
    [generateSpec, checkSpec, initSpec, completionsSpec, configSpec]

/-- The version of the program. -/
def version : String := "0.1.0"

end Scaffold.Command
