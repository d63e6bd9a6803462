import Scaffold.Command.Arguments
import Scaffold.Path.Basic

/-!
# What a run is asked for

The meaning of arguments that were read: the command with what it was given, and what holds
for every command.
-/

namespace Scaffold.Command

/-- How results are shown. -/
inductive Format where
  /-- For people if there is a terminal, else as plain text. -/
  | auto
  | human
  | plain
  | json
  deriving DecidableEq, Repr

/-- The format that a word stands for. -/
def Format.ofWord? : String → Option Format
  | "auto" => some .auto
  | "human" => some .human
  | "plain" => some .plain
  | "json" => some .json
  | _ => none

/-- The shells that there are completion scripts for. -/
inductive Shell where
  | bash
  | zsh
  | fish
  | powerShell
  | elvish
  deriving DecidableEq, Repr

/-- The shell that a word stands for. -/
def Shell.ofWord? : String → Option Shell
  | "bash" => some .bash
  | "zsh" => some .zsh
  | "fish" => some .fish
  | "power-shell" => some .powerShell
  | "elvish" => some .elvish
  | _ => none

/-- How an application is to be generated. -/
structure GenerateRequest where
  project : Path
  output? : Option Path := none
  templates? : Option Path := none
  strict : Bool := false
  force : Bool := false
  dryRun : Bool := false
  deriving DecidableEq, Repr

/-- What a run is asked to do. -/
inductive Task where
  | generate (request : GenerateRequest)
  | check (project : Path) (strict : Bool)
  | init (force : Bool)
  | completions (shell : Shell)
  | showSetting (key : String)
  | listSettings
  | showLocation
  deriving DecidableEq, Repr

/-- What holds for every task. -/
structure Common where
  verbose : Bool := false
  quiet : Bool := false
  noColor : Bool := false
  settings? : Option Path := none
  format : Format := .auto
  deriving DecidableEq, Repr

/-- What a run is asked for. -/
structure Invocation where
  common : Common
  task : Task
  deriving DecidableEq, Repr

/-- What the switches of all levels say together. Of a value that was given on several levels the
last one counts. -/
def Common.ofLevels (noColor? : Option String) (levels : List Level) : Common :=
  let value? (long : String) : Option String := levels.reverse.findSome? (·.value? long)
  { verbose := levels.any (·.has "verbose")
    quiet := levels.any (·.has "quiet")
    noColor := levels.any (·.has "no-color") || noColor? == some "true"
    settings? := (value? "config").map Path.mk
    format := ((value? "output-format").bind Format.ofWord?).getD .auto }

/-- The task that the last level stands for. -/
def Task.ofLevel? (l : Level) : Option Task :=
  match l.specs.head?.map Spec.name, l.words with
  | some "generate", [project] => some <| .generate
    { project := ⟨project⟩
      output? := (l.value? "output").map Path.mk
      templates? := (l.value? "templates").map Path.mk
      strict := l.has "strict"
      force := l.has "force"
      dryRun := l.has "dry-run" }
  | some "check", [project] => some (.check ⟨project⟩ (l.has "strict"))
  | some "init", [] => some (.init (l.has "force"))
  | some "completions", [word] => (Shell.ofWord? word).map .completions
  | some "get", [key] => some (.showSetting key)
  | some "list", [] => some .listSettings
  | some "path", [] => some .showLocation
  | _, _ => none

/-- What the arguments of a run ask for. -/
def Invocation.read (noColor? : Option String) (arguments : List String) :
    Except Stop Invocation := do
  let levels ← readArguments noColor? arguments
  match levels.getLast?.bind Task.ofLevel? with
  | some task => return ⟨Common.ofLevels noColor? levels, task⟩
  | none => throw (.misuse "a subcommand is required" [rootSpec])

end Scaffold.Command
