import Scaffold.Command.Invocation

/-!
# Completion scripts

For every shell there is a script that makes it complete the names of commands and switches.
-/

namespace Scaffold.Command

mutual

/-- All names of a command, its commands and its switches. -/
def Spec.names : Spec → List String
  | .mk name _ _ switches _ commands =>
    name :: switches.map (fun s => "--" ++ s.long) ++ namesOf commands

def namesOf : List Spec → List String
  | [] => []
  | s :: rest => s.names ++ namesOf rest

end

/-- Everything that may be completed, once each. -/
def completions : List String :=
  (namesOf rootSpec.commands ++ commonSwitches.map (fun s => "--" ++ s.long)).eraseDups

/-- The script for a shell. -/
def Shell.script (s : Shell) : String :=
  let program := rootSpec.name
  let words := " ".intercalate completions
  match s with
  | .bash => "complete -W \"" ++ words ++ "\" " ++ program ++ "\n"
  | .zsh => "#compdef " ++ program ++ "\n_values command " ++ words ++ "\n"
  | .fish => "complete -c " ++ program ++ " -f -a \"" ++ words ++ "\"\n"
  | .powerShell =>
    "Register-ArgumentCompleter -Native -CommandName " ++ program ++
      " -ScriptBlock \x7b param($word)\n  \"" ++ words ++
      "\" -split ' ' | Where-Object \x7b $_ -like \"$word*\" \x7d\n\x7d\n"
  | .elvish =>
    "set edit:completion:arg-completer[" ++ program ++ "] = \x7b|@args| put " ++ words ++
      " \x7d\n"

end Scaffold.Command
