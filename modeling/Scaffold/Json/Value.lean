import Scaffold.Text.Quoted

/-!
# JSON values and their texts

The values that are written as JSON, in a compact text without spaces and in an indented one. The
members of an object are written in the order in which they stand.
-/

namespace Scaffold.Json

/-- A value to be written. -/
inductive Value where
  | null
  | bool (b : Bool)
  | number (n : Nat)
  | string (s : String)
  | array (items : List Value)
  | object (members : List (String × Value))
  deriving Repr, Inhabited

/-- The four hexadecimal digits of a code. -/
def fourDigits (n : Nat) : List Char :=
  let digits := Text.hexDigits n
  List.replicate (4 - digits.length) '0' ++ digits

/-- A character as it stands in a string. -/
def escapedChar (c : Char) : List Char :=
  if c = '"' then ['\\', '"']
  else if c = '\\' then ['\\', '\\']
  else if c = '\x08' then ['\\', 'b']
  else if c = '\x0c' then ['\\', 'f']
  else if c = '\n' then ['\\', 'n']
  else if c = '\r' then ['\\', 'r']
  else if c = '\t' then ['\\', 't']
  else if c.toNat < 0x20 then ['\\', 'u'] ++ fourDigits c.toNat
  else [c]

/-- A string between its quotes. -/
def stringText (s : String) : String :=
  String.ofList ('"' :: s.toList.flatMap escapedChar ++ ['"'])

/-- The word for a truth value. -/
def boolText (b : Bool) : String := if b then "true" else "false"

namespace Value

mutual

/-- The text of a value without any space. -/
def compact : Value → String
  | null => "null"
  | bool b => boolText b
  | number n => toString n
  | string s => stringText s
  | array items => "[" ++ ",".intercalate (compactItems items) ++ "]"
  | object members => "\x7b" ++ ",".intercalate (compactMembers members) ++ "\x7d"

def compactItems : List Value → List String
  | [] => []
  | v :: rest => v.compact :: compactItems rest

def compactMembers : List (String × Value) → List String
  | [] => []
  | (key, v) :: rest => (stringText key ++ ":" ++ v.compact) :: compactMembers rest

end

/-- Items below each other between brackets, on lines that are indented by `depth` steps of two
spaces; nothing between the brackets if there is no item. -/
def bracketed (opening closing : String) (depth : Nat) (items : List String) : String :=
  let newline (depth : Nat) : String := "\n" ++ String.ofList (List.replicate (2 * depth) ' ')
  if items.isEmpty then opening ++ closing
  else opening ++ newline (depth + 1) ++ ("," ++ newline (depth + 1)).intercalate items ++
    newline depth ++ closing

mutual

/-- The text of a value on several lines, where the value itself is indented by `depth` steps. -/
def prettyAt (depth : Nat) : Value → String
  | null => "null"
  | bool b => boolText b
  | number n => toString n
  | string s => stringText s
  | array items => bracketed "[" "]" depth (prettyItems (depth + 1) items)
  | object members => bracketed "\x7b" "\x7d" depth (prettyMembers (depth + 1) members)

def prettyItems (depth : Nat) : List Value → List String
  | [] => []
  | v :: rest => v.prettyAt depth :: prettyItems depth rest

def prettyMembers (depth : Nat) : List (String × Value) → List String
  | [] => []
  | (key, v) :: rest => (stringText key ++ ": " ++ v.prettyAt depth) :: prettyMembers depth rest

end

/-- The text of a value on several lines. -/
def pretty (v : Value) : String := v.prettyAt 0

end Value

end Scaffold.Json
