import Scaffold.Json.Value
import Scaffold.Path.Basic
import Scaffold.Toml.Written

/-!
# Settings

What a user can set once for all runs: where base code comes from, where applications go, whether
parents have to be declared, and how results are shown.
-/

namespace Scaffold

/-- The settings of a user. -/
structure Settings where
  /-- Where base code is read from; the bundled one if there is none. -/
  templates? : Option Path := none
  /-- Where applications are put; a directory named after the project if there is none. -/
  output? : Option Path := none
  /-- Whether every parent has to be declared. -/
  strict : Bool := false
  noColor : Bool := false
  /-- The word for how results are shown. -/
  format : String := "auto"
  deriving DecidableEq, Repr

namespace Settings

/-- The text of an optional path. -/
def pathText (p : Option Path) : String := (p.map (·.text)).getD ""

/-- The text of the setting with a key, if there is one. -/
def value? (s : Settings) (key : String) : Option String :=
  match key with
  | "generation.templates_dir" => some (pathText s.templates?)
  | "generation.output_dir" => some (pathText s.output?)
  | "generation.strict_relations" => some (Json.boolText s.strict)
  | "output.no_color" => some (Json.boolText s.noColor)
  | "output.format" => some s.format
  | _ => none

/-- The settings as JSON. A path that is not set is left out. -/
def toJson (s : Settings) : Json.Value :=
  let path (key : String) (p : Option Path) : List (String × Json.Value) :=
    (p.map fun p => (key, .string p.text)).toList
  .object [
    ("generation", .object <|
      path "templates_dir" s.templates? ++ path "output_dir" s.output? ++
        [("strict_relations", .bool s.strict)]),
    ("output", .object [("no_color", .bool s.noColor), ("format", .string s.format)])]

/-- The settings as the text of a file. A path that is not set is left out. -/
def toToml (s : Settings) : String :=
  let line (key value : String) : String := key ++ " = " ++ value ++ "\n"
  let path (key : String) (p : Option Path) : String :=
    (p.map fun p => line key (Toml.written p.text)).getD ""
  "[generation]\n" ++ path "templates_dir" s.templates? ++ path "output_dir" s.output? ++
    line "strict_relations" (Json.boolText s.strict) ++
  "\n[output]\n" ++ line "no_color" (Json.boolText s.noColor) ++
    line "format" (Toml.written s.format)

end Settings

end Scaffold
