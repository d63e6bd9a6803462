import Scaffold.Settings.Environment
import Scaffold.Text.Character

/-!
# Environment files

A file of lines `NAME=value` that adds variables to the environment. What the environment has
already stays as it is. A value may be quoted, and a `$` in it stands for the value of a variable.
At the first line that is wrong the reading ends, and what was read until then counts.
-/

namespace Scaffold.EnvironmentFile

/-! ## Lines -/

/-- Where a scan for the end of a line is. -/
inductive Spot where
  | bare
  | behindBlank
  | escape
  | single
  | singleEscape
  | double
  | doubleEscape
  deriving DecidableEq, Repr

/-- Where the scan is after a character; `none` if a comment begins there. -/
def Spot.next? : Spot → Char → Option Spot
  | behindBlank, '#' => none
  | .behindBlank, '\\' | .bare, '\\' => some .escape
  | .behindBlank, '"' | .bare, '"' => some .double
  | .behindBlank, '\'' | .bare, '\'' => some .single
  | .bare, c =>
    some (if Text.isBlank c && c != '\n' && c != '\r' then .behindBlank else .bare)
  | .behindBlank, _ | .escape, _ => some .bare
  | .single, '\\' => some .singleEscape
  | .single, '\'' => some .bare
  | .single, _ | .singleEscape, _ => some .single
  | .double, '\\' => some .doubleEscape
  | .double, '"' => some .bare
  | .double, _ | .doubleEscape, _ => some .double

/-- Scans a line: gives what stands before a comment, and where the scan ends if there is none. -/
def scan : Spot → List Char → List Char × Option Spot
  | spot, [] => ([], some spot)
  | spot, c :: rest =>
    match spot.next? c with
    | none => ([], none)
    | some spot =>
      let (kept, last) := scan spot rest
      (c :: kept, last)

/-- A line without the line break that ends it. -/
def withoutBreak (line : List Char) : List Char :=
  match line.reverse with
  | '\n' :: '\r' :: rest => rest.reverse
  | '\n' :: rest => rest.reverse
  | _ => line

/-- Joins the lines over which a quote or an escape extends, where `passed` holds what was passed of
such a line. A line that is not complete at the end is wrong. -/
def joinLines : (passed : List Char) → Spot → List (List Char) → List (Option (List Char))
  | _, spot, [] => if spot = .bare then [] else [none]
  | passed, spot, line :: rest =>
    let whole := passed ++ line
    if (whole.dropWhile Text.isBlank).head? = some '#' then some [] :: joinLines [] .bare rest
    else match scan spot line with
      | (kept, none) => some (passed ++ kept) :: joinLines [] .bare rest
      | (_, some .bare) => some (withoutBreak whole) :: joinLines [] .bare rest
      | (_, some spot) => joinLines whole spot rest

/-! ## Values -/

/-- Where the reading of a value is. -/
inductive Reading where
  | bare
  | single
  | double
  /-- Behind a backslash. -/
  | escape (inDouble : Bool)
  /-- In the name of a variable, given in reverse. -/
  | name (inDouble : Bool) (passed : List Char)
  /-- In the name of a variable between braces, given in reverse. -/
  | braced (inDouble : Bool) (passed : List Char)
  /-- Behind the value. Only a comment may follow. -/
  | ended
  deriving DecidableEq, Repr

/-- What goes on around an escape or a variable. -/
def Reading.around (inDouble : Bool) : Reading := if inDouble then .double else .bare

/-- Letters and digits; beyond ASCII whatever is not blank. -/
def isNameChar (c : Char) : Bool := c.isAlphanum || (128 ≤ c.toNat && !Text.isBlank c)

/-- The value of a variable whose name is given in reverse, empty if there is none. -/
def substituted (env : Environment) (name : List Char) : List Char :=
  ((env.lookup (String.ofList name.reverse)).getD "").toList

/-- Where the reading is after a character, and what the character adds to the value; `none` if it
may not stand there. -/
def Reading.next? (env : Environment) : Reading → Char → Option (Reading × List Char)
  | ended, c => if c = ' ' ∨ c = '\t' then some (.ended, []) else none
  | .escape inDouble, c =>
    if c = 'n' then some (.around inDouble, ['\n'])
    else if ['\\', '\'', '"', '$', ' '].contains c then some (.around inDouble, [c])
    else none
  | .single, c => some (if c = '\'' then (.bare, []) else (.single, [c]))
  | .name inDouble passed, c =>
    if isNameChar c then some (.name inDouble (c :: passed), [])
    else if c = '\x7b' ∧ passed = [] then some (.braced inDouble [], [])
    else
      let value := substituted env passed
      some (if c = '$' then (.name inDouble [], value) else (.around inDouble, value ++ [c]))
  | .braced inDouble passed, c =>
    some (if c = '\x7d' then (.around inDouble, substituted env passed)
      else (.braced inDouble (c :: passed), []))
  | .double, c =>
    some (if c = '$' then (.name true [], [])
      else if c = '"' then (.bare, [])
      else if c = '\\' then (.escape true, [])
      else (.double, [c]))
  | .bare, c =>
    some (if c = '$' then (.name false [], [])
      else if c = '\'' then (.single, [])
      else if c = '"' then (.double, [])
      else if c = '\\' then (.escape false, [])
      else if c = ' ' ∨ c = '\t' then (.ended, [])
      else (.bare, [c]))

/-- What the end of a line adds to a value; `none` if something is still open. -/
def Reading.finish? (env : Environment) : Reading → Option (List Char)
  | bare | ended | .escape false => some []
  | .name false passed => some (substituted env passed)
  | _ => none

/-- Reads a value to its end or to a comment behind it. -/
def valueFrom (env : Environment) : Reading → List Char → Option (List Char)
  | reading, [] => reading.finish? env
  | reading, c :: rest =>
    if reading = .ended ∧ c = '#' then some []
    else do
      let (reading, added) ← reading.next? env c
      return added ++ (← valueFrom env reading rest)

/-! ## Entries -/

/-- Reads a name: a letter or an underscore, then also digits and dots. -/
def name? (cs : List Char) : Option (List Char × List Char) :=
  let isFirst (c : Char) : Bool := c.isAlpha || c == '_'
  let isInner (c : Char) : Bool := c.isAlphanum || c == '_' || c == '.'
  if cs.head?.any isFirst then some (cs.takeWhile isInner, cs.dropWhile isInner) else none

/-- What follows an equals sign with the blanks around it. -/
def afterEquals? (cs : List Char) : Option (List Char) :=
  match cs.dropWhile Text.isBlank with
  | '=' :: rest => some (rest.dropWhile Text.isBlank)
  | _ => none

/-- The name that follows the word `export`, and what follows its equals sign. -/
def exported? (word cs : List Char) : Option (List Char × List Char) := do
  guard (word = "export".toList)
  let (name, rest) ← name? cs
  return (name, ← afterEquals? rest)

/-- The variable that a line sets, `some none` if it sets none, `none` if it is wrong. The word
`export` may stand before the name. -/
def entry? (env : Environment) (line : List Char) : Option (Option (String × String)) := do
  let cs := ((line.reverse.dropWhile Text.isBlank).reverse).dropWhile Text.isBlank
  if cs.isEmpty ∨ cs.head? = some '#' then return none
  let (name, rest) ← name? cs
  let (name, rest) ← match afterEquals? rest with
    | some rest => some (name, rest)
    | none => exported? name (rest.dropWhile Text.isBlank)
  let value ← if rest.head? = some '#' then some [] else valueFrom env .bare rest
  return some (String.ofList name, String.ofList value)

/-- The variables with those of some lines added, up to the first line that is wrong. -/
def addLines (env : Environment) : List (Option (List Char)) → Environment
  | [] => env
  | none :: _ => env
  | some line :: rest =>
    match entry? env line with
    | none => env
    | some none => addLines env rest
    | some (some (name, value)) =>
      addLines (if (env.lookup name).isSome then env else env ++ [(name, value)])
        rest

/-- The variables with those of a file's lines added. -/
def extend (env : Environment) (lines : List (List Char)) : Environment :=
  addLines env (joinLines [] .bare lines)

end Scaffold.EnvironmentFile
