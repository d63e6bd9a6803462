import Scaffold.Command.Arguments

/-!
# Usage

What a user is told who asks for help or gives arguments that cannot be read.
-/

namespace Scaffold.Command

/-- What a command takes is called on the line that shows how to use it. -/
def Takes.label? : Takes → Option String
  | nothing | count => none
  | text label | path label | choice label _ => some label

/-- A switch as the list of switches shows it. -/
def Switch.usage (s : Switch) : String :=
  (match s.short? with
    | some c => "-" ++ String.ofList [c] ++ ", "
    | none => "    ") ++
  "--" ++ s.long ++ ((s.takes.label?.map fun label => " <" ++ label ++ ">").getD "")

/-- Lines with a name on the left and an explanation on the right. -/
def columns (rows : List (String × String)) : String :=
  let width := rows.foldl (fun width row => max width row.1.length) 0
  String.join <| rows.map fun (left, right) =>
    "  " ++ left ++ String.ofList (List.replicate (width + 2 - left.length) ' ') ++ right ++ "\n"

/-- The line that shows how to use a command, given with those it was entered from. -/
def usageLine (specs : List Spec) : String :=
  let names := specs.reverse.map Spec.name
  let operands := ((specs.head?.map Spec.operands).getD []).filterMap fun operand =>
    operand.label?.map fun label => "<" ++ label ++ ">"
  let command := if specs.head?.any (!·.commands.isEmpty) then ["<COMMAND>"] else []
  "Usage: " ++ " ".intercalate (names ++ ["[OPTIONS]"] ++ operands ++ command) ++ "\n"

/-- The help for a command, given with those it was entered from. -/
def helpText (specs : List Spec) : String :=
  let block (title : String) (rows : List (String × String)) : String :=
    if rows.isEmpty then "" else "\n" ++ title ++ ":\n" ++ columns rows
  match specs with
  | [] => ""
  | s :: _ =>
    s.about ++ "\n\n" ++ usageLine specs ++
    block "Commands" (s.commands.map fun c => (c.name, c.about)) ++
    block "Options" ((s.switches ++ commonSwitches).map fun w => (w.usage, w.about))

/-- The version of the program as it is shown. -/
def versionText : String := rootSpec.name ++ " " ++ version ++ "\n"

/-- What a user is told who gave arguments that cannot be read. -/
def misuseText (detail : String) (specs : List Spec) : String :=
  "error: " ++ detail ++ "\n\n" ++ usageLine specs ++
    "\nFor more information, try '--help'.\n"

end Scaffold.Command
