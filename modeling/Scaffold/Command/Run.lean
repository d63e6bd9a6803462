import Scaffold.Command.Completion
import Scaffold.Command.Configure
import Scaffold.Command.Tasks
import Scaffold.Command.Usage

/-!
# Runs

A run from its arguments to its exit code.
-/

namespace Scaffold.Command

variable {m : Type → Type} [Monad m]

/-- Carries out a task. -/
def Session.perform (s : Session m) : Task → ExceptT Failure m Unit
  | .generate request => s.generate request
  | .check project strict => s.check project strict
  | .init force => s.init force
  | .completions shell => do
    match ← s.host.print shell.script with
    | .ok () => pure ()
    | .error reason => throw (.stream reason)
  | .showSetting key => s.showSetting key
  | .listSettings => s.listSettings
  | .showLocation => s.showLocation

/-- Reads the settings and carries out a task. A task that makes a file with settings does not read
any. -/
def Host.perform (h : Host m) (around : Surroundings) (location : Path) (i : Invocation) :
    ExceptT Failure m Unit := do
  let settings ← match i.task with
    | .init _ => pure {}
    | _ => h.settings around.environment i.common.settings? location
  Session.perform
    { host := h
      console := .choose i.common settings around.showsResults
      settings
      location := i.common.settings?.getD location }
    i.task

/-- Tells a user why the reading of arguments has ended, and gives the exit code. Whether what was
asked for could be written is not looked at. -/
def Host.tellStop (h : Host m) : Stop → m Nat
  | .help specs => do
    discard (h.print (helpText specs))
    return 0
  | .version => do
    discard (h.print versionText)
    return 0
  | .misuse detail specs => do
    h.complain (misuseText detail specs)
    return 2

/-- The exit code of a run that stops because something relied on does not hold. -/
def breachCode : Nat := 101

/-- Carries out a run and gives its exit code. -/
def Host.run (h : Host m) (given : Surroundings) (arguments : List String) : m Nat := do
  let around := { given with environment := ← h.environment given.environment }
  match Invocation.read (around.environment.lookup "NO_COLOR") arguments with
  | .error stop => h.tellStop stop
  | .ok invocation =>
    let location := Settings.location around.environment around.accountHome
    match ← (h.perform around location invocation).run with
    | .ok () => return 0
    | .error (.generation (.breach p)) =>
      h.complain ((Error.breach p).message ++ "\n")
      return breachCode
    | .error failure =>
      let text := if around.showsErrors then failure.paintedText else failure.plainText
      h.complain (text location invocation.common.verbose)
      return failure.exitCode

end Scaffold.Command
