import Scaffold.Settings.Basic
import Scaffold.Text.Case
import Scaffold.Toml.Scalar

/-!
# Layers of settings

Settings come in layers: what holds by default, what a file says, what variables of the environment
say. A layer gives values to dotted keys. Later layers win, and tables are merged key by key.
-/

namespace Scaffold.Settings

open Toml (Value)

/-- A layer of settings: values under dotted keys. -/
abbrev Layer := List (String × Value)

/-- The members of a table; nothing else has any. -/
def members : Value → List (String × Value)
  | .table members => members
  | _ => []

/-- The value under a key. -/
def member? (v : Value) (key : String) : Option Value := (members v).lookup key

/-- Members with a value put under a key. -/
def putMember (key : String) (v : Value) : List (String × Value) → List (String × Value)
  | [] => [(key, v)]
  | (k, old) :: rest => if k = key then (k, v) :: rest else (k, old) :: putMember key v rest

mutual

/-- A value with a newer one over it: the members of a table are merged, anything else is
replaced. -/
def overlaid (old : Value) : Value → Value
  | .table new => .table (overlaidMembers (members old) new)
  | v => v

def overlaidMembers (old : List (String × Value)) :
    List (String × Value) → List (String × Value)
  | [] => old
  | (key, v) :: rest =>
    overlaidMembers (putMember key (overlaid ((old.lookup key).getD (.table [])) v) old) rest

end

/-- The parts of a dotted key. What is no dotted key is one part as it stands. -/
def keyParts (key : String) : List String :=
  let parts := key.splitOn "."
  if parts.all fun part => part != "" && part.toList.all Toml.isKeyChar then parts else [key]

/-- A table that holds nothing but a value under a path of keys. -/
def nested (v : Value) : List String → Value
  | [] => v
  | part :: rest => .table [(part, nested v rest)]

/-- The table that layers make up, the last one on top. -/
def overlay (layers : List Layer) : Value :=
  layers.flatten.foldl (fun table (key, v) => overlaid table (nested v (keyParts key))) (.table [])

/-! ## Reading settings -/

/-- The truth value that a value stands for. A number stands for whether it is other than zero. -/
def truth? : Value → Option Bool
  | .bool b => some b
  | .integer n => some (n ≠ 0)
  | .float x => some !x.isZero
  | .string s =>
    let word := String.ofList (Text.lowerText s.toList)
    if ["1", "true", "on", "yes"].contains word then some true
    else if ["0", "false", "off", "no"].contains word then some false
    else none
  | _ => none

/-- The text that a value stands for. -/
def text? : Value → Option String
  | .string s => some s
  | .moment s => some s
  | .bool b => some (Json.boolText b)
  | .integer n => some (toString n)
  | .float x => some x.text
  | _ => none

/-- The values of the given fields: those of a table by their names, those of an array in order. -/
def fields? (names : List String) : Value → Option (List (Option Value))
  | .table members => some (names.map fun name => members.lookup name)
  | .array items => some ((List.range names.length).map (items[·]?))
  | _ => none

/-- A field as it is read, or what holds if it is missing. -/
def fieldOr {α : Type} (read : Value → Option α) (missing : α) : Option Value → Option α
  | none => some missing
  | some v => read v

/-- Reads a section, where it is not missing. -/
def section? (table : Value) (name : String) (fields : List String) :
    Option (List (Option Value)) :=
  match member? table name with
  | none => some (fields.map fun _ => none)
  | some v => fields? fields v

/-- The settings that a table holds; `none` if a value is of the wrong kind. What is not known is
passed over. -/
def ofTable? (table : Value) : Option Settings := do
  let generation ← section? table "generation" ["templates_dir", "output_dir", "strict_relations"]
  let output ← section? table "output" ["no_color", "format"]
  let field (fields : List (Option Value)) (i : Nat) : Option Value := fields[i]?.join
  let path? (v : Value) : Option (Option Path) := (text? v).map fun text => some ⟨text⟩
  let default : Settings := {}
  return {
    templates? := ← fieldOr path? default.templates? (field generation 0)
    output? := ← fieldOr path? default.output? (field generation 1)
    strict := ← fieldOr truth? default.strict (field generation 2)
    noColor := ← fieldOr truth? default.noColor (field output 0)
    format := ← fieldOr text? default.format (field output 1) }

/-- The layer of what holds by default. -/
def defaults : Layer :=
  let default : Settings := {}
  [("generation.strict_relations", .bool default.strict),
    ("output.no_color", .bool default.noColor),
    ("output.format", .string default.format)]

/-- The settings that layers over the defaults make up. -/
def ofLayers? (layers : List Layer) : Option Settings := ofTable? (overlay (defaults :: layers))

end Scaffold.Settings
