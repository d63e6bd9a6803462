import Scaffold.Json.Cursor
import Scaffold.Text.Quoted

/-!
# Faults of a document

Why a text is not the document that was expected, and how it is reported.
-/

namespace Scaffold.Json

/-- What was found where something else was expected. -/
inductive Found where
  | null
  | bool (b : Bool)
  | integer (n : Int)
  /-- A number that is no integer, by its text. -/
  | float (text : String)
  | string (s : String)
  | array
  | object
  deriving DecidableEq, Repr

/-- How a report calls what was found. -/
def Found.message : Found → String
  | null => "null"
  | bool b => "boolean `" ++ (if b then "true" else "false") ++ "`"
  | integer n => "integer `" ++ toString n ++ "`"
  | float text => "floating point `" ++ text ++ "`"
  | string s => "string " ++ quoted s
  | array => "sequence"
  | object => "map"

/-- Why a text is not the document that was expected. -/
inductive Fault where
  | endInValue
  | endInString
  | endInArray
  | endInObject
  | noValue
  | noColon
  | noCommaInArray
  | noCommaInObject
  | noKey
  | commaAtEnd
  | trailing
  | badWord
  | badNumber
  | numberTooLarge
  | badEscape
  | controlCharacter
  /-- An escaped leading surrogate without any escape behind it. -/
  | surrogateCutShort
  /-- An escaped surrogate without its partner. -/
  | surrogateAlone
  | wrongKind (found : Found) (expected : String)
  | missingMember (key : String)
  | repeatedMember (key : String)
  | tooFewItems (count : Nat) (expected : String)
  deriving DecidableEq, Repr

/-- The wording of a fault. -/
def Fault.message : Fault → String
  | endInValue => "EOF while parsing a value"
  | endInString => "EOF while parsing a string"
  | endInArray => "EOF while parsing a list"
  | endInObject => "EOF while parsing an object"
  | noValue => "expected value"
  | noColon => "expected `:`"
  | noCommaInArray => "expected `,` or `]`"
  | noCommaInObject => "expected `,` or `\x7d`"
  | noKey => "key must be a string"
  | commaAtEnd => "trailing comma"
  | trailing => "trailing characters"
  | badWord => "expected ident"
  | badNumber => "invalid number"
  | numberTooLarge => "number out of range"
  | badEscape => "invalid escape"
  | controlCharacter => "control character (\\u0000-\\u001F) found while parsing a string"
  | surrogateCutShort => "unexpected end of hex escape"
  | surrogateAlone => "lone leading surrogate in hex escape"
  | wrongKind found expected => "invalid type: " ++ found.message ++ ", expected " ++ expected
  | missingMember key => "missing field `" ++ key ++ "`"
  | repeatedMember key => "duplicate field `" ++ key ++ "`"
  | tooFewItems count expected => "invalid length " ++ toString count ++ ", expected " ++ expected

/-- A fault and where it was noticed. -/
structure Failure where
  fault : Fault
  position : Position
  deriving DecidableEq, Repr

/-- The report of a failure, which names the place twice. -/
def Failure.message (f : Failure) : String :=
  let line := toString f.position.line
  let column := toString f.position.column
  "line " ++ line ++ ", column " ++ column ++ ": " ++ f.fault.message ++ " at line " ++ line ++
    " column " ++ column

/-- Reads a value at a cursor and goes on behind it. -/
abbrev Reader (α : Type) : Type := StateT Cursor (Except Failure) α

/-- Ends the reading with a fault. -/
def fail {α : Type} (fault : Fault) (position : Position) : Except Failure α :=
  .error ⟨fault, position⟩

end Scaffold.Json
