import Scaffold.Json.Value
import Scaffold.Toml.Quoted

/-!
# Writing text in TOML

Of the four ways to quote a text the plainest that can hold it is taken: double quotes, single
quotes, three double quotes, three single quotes. What none of them holds as it stands is
written with escapes.
-/

namespace Scaffold.Toml

/-- What a text holds that matters for its quotes. -/
structure Traits where
  /-- How many double quotes stand in a row at most. -/
  doubles : Nat
  /-- How many single quotes stand in a row at most. -/
  singles : Nat
  backslash : Bool
  newline : Bool
  /-- Whether there are control characters other than line breaks. -/
  control : Bool

/-- The length of the longest run of a character, where `run` of them were just passed. -/
def longestRun (c : Char) : (run : Nat) → List Char → Nat
  | run, [] => run
  | run, d :: rest => if d = c then longestRun c (run + 1) rest else max run (longestRun c 0 rest)

/-- The traits of a text. -/
def Traits.of (cs : List Char) : Traits where
  doubles := longestRun '"' 0 cs
  singles := longestRun '\'' 0 cs
  backslash := cs.contains '\\'
  newline := cs.contains '\n'
  control := cs.any fun c => isControl c && c != '\n'

/-- A character other than a double quote between double quotes. Line breaks stand for themselves in
a `long` text. -/
def escapedChar (long : Bool) (c : Char) : List Char :=
  if c = '\x08' then ['\\', 'b']
  else if c = '\t' then ['\\', 't']
  else if c = '\n' then if long then ['\n'] else ['\\', 'n']
  else if c = '\x0c' then ['\\', 'f']
  else if c = '\r' then ['\\', 'r']
  else if c = '\\' then ['\\', '\\']
  else if isControl c then ['\\', 'u'] ++ (Json.fourDigits c.toNat).map Char.toUpper
  else [c]

/-- A text as it stands between double quotes. In a `long` text up to two double quotes in a row
stand for themselves, of which `run` were just passed. -/
def escapedFrom (long : Bool) : (run : Nat) → List Char → List Char
  | _, [] => []
  | run, c :: rest =>
    if c ≠ '"' then escapedChar long c ++ escapedFrom long 0 rest
    else if long && run < 2 then '"' :: escapedFrom long (run + 1) rest
    else '\\' :: '"' :: escapedFrom long 0 rest

/-- A text between double quotes. -/
def basicText (cs : List Char) : List Char := '"' :: escapedFrom false 0 cs ++ ['"']

/-- A text between three of some quotes, that begins on the next line. -/
def longText (quote : Char) (body : List Char) : List Char :=
  let quotes := List.replicate 3 quote
  quotes ++ '\n' :: body ++ quotes

/-- A text between quotes as TOML has it. -/
def writtenText (cs : List Char) : List Char :=
  let t := Traits.of cs
  if !t.control && !t.backslash && t.doubles = 0 && !t.newline then basicText cs
  else if !t.control && t.singles = 0 && !t.newline then '\'' :: cs ++ ['\'']
  else if !t.control && !t.backslash && t.doubles ≤ 2 then longText '"' (escapedFrom true 0 cs)
  else if !t.control && t.singles ≤ 2 then longText '\'' cs
  else if t.newline then longText '"' (escapedFrom true 0 cs)
  else basicText cs

/-- A string between quotes as TOML has it. -/
def written (s : String) : String := String.ofList (writtenText s.toList)

end Scaffold.Toml
