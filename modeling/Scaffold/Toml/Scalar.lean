import Scaffold.Decimal.Double
import Scaffold.Toml.Moment

/-!
# Values of TOML

The values of a document, and how those are read that are written without quotes or brackets, as one
run of characters: truth values, numbers, dates and times. The members of a table stand in the order
in which they were first given.
-/

namespace Scaffold.Toml

/-- A value of a document. -/
inductive Value where
  | string (s : String)
  | integer (n : Int)
  | float (x : Double)
  | bool (b : Bool)
  /-- A date, a time or both, as its text. -/
  | moment (text : String)
  | array (items : List Value)
  | table (members : List (String × Value))
  deriving Repr, Inhabited

/-- The characters of which a key without quotes is made. -/
def isKeyChar (c : Char) : Bool := c.isAlphanum || c == '_' || c == '-'

/-- The characters of which an unquoted value is made. -/
def isScalarChar (c : Char) : Bool := isKeyChar c || c == '+' || c == '.' || c == ':'

/-- Digits without the underscores between them. There is a digit at least, and an underscore has a
digit on either side. -/
def ungrouped? (isDigit : Char → Bool) : List Char → Option (List Char)
  | [] => none
  | [d] => if isDigit d then some [d] else none
  | d :: '_' :: rest => if isDigit d then (ungrouped? isDigit rest).map (d :: ·) else none
  | d :: rest => if isDigit d then (ungrouped? isDigit rest).map (d :: ·) else none

/-- Splits the sign off a number; tells whether it is a minus. -/
def signed (cs : List Char) : Bool × List Char :=
  match cs with
  | '-' :: rest => (true, rest)
  | '+' :: rest => (false, rest)
  | _ => (false, cs)

/-- Decimal digits, of which only a single one may begin with zero. -/
def wholeDigits? (cs : List Char) : Option (List Char) := do
  let digits ← ungrouped? Char.isDigit cs
  guard (digits.length = 1 ∨ digits.head? ≠ some '0')
  return digits

/-- An integer that fits 64 bits. -/
def fitting? (n : Int) : Option Value :=
  if -(twoTo 63 : Int) ≤ n ∧ n < twoTo 63 then some (.integer n) else none

/-- An integer: in base 16, 8 or 2 behind its mark, else in base 10 with a sign if need be. -/
def integer? (cs : List Char) : Option Value :=
  let marked (base : Nat) (digits : List Char) : Option Value := do
    let digits ← ungrouped? (fun c => (Text.hexValue? c).any (· < base)) digits
    fitting? (Text.numberOf base digits)
  match cs with
  | '0' :: 'x' :: digits => marked 16 digits
  | '0' :: 'o' :: digits => marked 8 digits
  | '0' :: 'b' :: digits => marked 2 digits
  | _ => do
    let (negative, digits) := signed cs
    let n := Text.numberOf 10 (← wholeDigits? digits)
    fitting? (if negative then -n else n)

/-- The decimal `whole.fraction · 10 ^ exponent`. -/
def decimalOf (whole fraction : List Char) (exponent : Int) : Decimal :=
  ⟨Text.numberOf 10 (whole ++ fraction), exponent - fraction.length⟩

/-- The power of ten behind an `e`. -/
def exponent? (cs : List Char) : Option Int := do
  let (negative, digits) := signed cs
  let n := Text.numberOf 10 (← ungrouped? Char.isDigit digits)
  return if negative then -n else n

/-- A number with a fraction, an exponent or both, or one of the words for what is no number. One
that is too large is refused. -/
def float? (cs : List Char) : Option Value := do
  let (negative, cs) := signed cs
  if cs = ['i', 'n', 'f'] then return .float (.infinite negative)
  if cs = ['n', 'a', 'n'] then return .float .nan
  let isMark (c : Char) : Bool := c == 'e' || c == 'E'
  let mantissa := cs.takeWhile fun c => !isMark c
  let power := cs.dropWhile fun c => !isMark c
  guard (mantissa.contains '.' || !power.isEmpty)
  let whole ← wholeDigits? (mantissa.takeWhile (· ≠ '.'))
  let fraction ← match mantissa.dropWhile (· ≠ '.') with
    | [] => some []
    | _ :: digits => ungrouped? Char.isDigit digits
  let exponent ← match power with
    | [] => some 0
    | _ :: digits => exponent? digits
  let x := Double.ofDecimal negative (decimalOf whole fraction exponent)
  guard !x.isInfinite
  return .float x

/-- The value that a run of characters spells. -/
def scalar? (cs : List Char) : Option Value :=
  if cs = ['t', 'r', 'u', 'e'] then some (.bool true)
  else if cs = ['f', 'a', 'l', 's', 'e'] then some (.bool false)
  else integer? cs <|> float? cs <|> (moment? cs).map .moment

end Scaffold.Toml
