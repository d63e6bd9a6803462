import Scaffold.Settings.Layer
import Scaffold.Text.Replace

/-!
# Environments

Variables whose name begins with `CRUDGEN_` make up a layer of settings. Two underscores in the rest
of the name stand for a dot, and letter case does not matter. A value is read as a truth value or a
number where it looks like one.
-/

namespace Scaffold

/-- The variables of an environment. -/
abbrev Environment := List (String × String)

namespace Settings

open Toml (Value)

/-- An integer of 64 bits in base 10. -/
def readInteger? (cs : List Char) : Option Value := do
  let (negative, digits) := Toml.signed cs
  guard (!digits.isEmpty && digits.all Char.isDigit)
  let n := Text.numberOf 10 digits
  Toml.fitting? (if negative then -n else n)

/-- The exponent behind a mantissa. -/
def readExponent? (cs : List Char) : Option Int :=
  match cs with
  | [] => some 0
  | e :: rest => do
    let (negative, digits) := Toml.signed rest
    guard ((e == 'e' || e == 'E') && !digits.isEmpty && digits.all Char.isDigit)
    let n := Text.numberOf 10 digits
    return if negative then -n else n

/-- A number that may have a fraction and an exponent, or a word for what is no number. Digits may
be missing on one side of the point. What is too large is infinite. -/
def readDouble? (cs : List Char) : Option Value := do
  let (negative, cs) := Toml.signed cs
  let word := String.ofList (cs.map Char.toLower)
  if word = "inf" ∨ word = "infinity" then return .float (.infinite negative)
  if word = "nan" then return .float .nan
  let whole := cs.takeWhile Char.isDigit
  let behind := cs.dropWhile Char.isDigit
  let (fraction, behind) := match behind with
    | '.' :: rest => (rest.takeWhile Char.isDigit, rest.dropWhile Char.isDigit)
    | _ => ([], behind)
  guard (!whole.isEmpty || !fraction.isEmpty)
  let exponent ← readExponent? behind
  return .float (Double.ofDecimal negative (Toml.decimalOf whole fraction exponent))

/-- The value of a variable. -/
def readVariable (text : String) : Value :=
  let cs := text.toList
  let word := Text.lowerText cs
  if word = ['t', 'r', 'u', 'e'] then .bool true
  else if word = ['f', 'a', 'l', 's', 'e'] then .bool false
  else (readInteger? cs <|> readDouble? cs).getD (.string text)

/-- What the name of a variable for settings begins with, in lower case. -/
def variableMark : List Char := "crudgen_".toList

/-- The key that a variable sets, if it is one for settings. -/
def variableKey? (name : String) : Option String :=
  (Text.after? variableMark (Text.lowerText name.toList)).map fun rest =>
    String.ofList (Text.replaceAll ['_', '_'] ['.'] rest)

/-- The layer of settings that an environment makes up. -/
def ofEnvironment (env : Environment) : Layer :=
  env.filterMap fun (name, text) =>
    (variableKey? name).map fun key => (key, readVariable text)

end Settings

end Scaffold
