import Scaffold.Decimal.Text

/-!
# Doubles

The numbers that a double of 64 bits can hold, how a decimal is rounded to one, and the positional
text of one. The text has the fewest digits that are read back as the number.
-/

namespace Scaffold

/-- A number as a double holds it. -/
inductive Double where
  | zero (negative : Bool)
  | finite (negative : Bool) (size : Binary)
  | infinite (negative : Bool)
  | nan
  deriving DecidableEq, Repr

namespace Double

/-- Rounds `num / den` to a whole number, a half to the even one. -/
def roundQuotient (num den : Nat) : Nat :=
  let whole := num / den
  match compare (2 * (num % den)) den with
  | .lt => whole
  | .gt => whole + 1
  | .eq => whole + whole % 2

/-- The least exponent of a double. -/
def leastExponent : Int := -1074

/-- The greatest exponent of a double. -/
def greatestExponent : Int := 971

/-- The double nearest to a positive quotient. The exponent is the one for which the mantissa has 53
binary digits, but not below the least. -/
def ofQuotient (negative : Bool) (num den : Nat) : Double :=
  let mantissa (round : Nat → Nat → Nat) (q : Int) : Nat :=
    round (num * twoTo (-q).toNat) (den * twoTo q.toNat)
  let q := max leastExponent ((num.log2 : Int) - den.log2 - 53)
  let q := if mantissa (· / ·) q < twoTo 53 then q else q + 1
  let (m, q) := match mantissa roundQuotient q with
    | m => if m = twoTo 53 then (twoTo 52, q + 1) else (m, q)
  if m = 0 then .zero negative
  else if greatestExponent < q then .infinite negative
  else .finite negative ⟨m, q⟩

/-- The double nearest to a decimal. What lies beyond `10 ^ 400` on either side needs no
counting. -/
def ofDecimal (negative : Bool) (d : Decimal) : Double :=
  if d.digits = 0 then .zero negative
  else if 400 < d.scale then .infinite negative
  else if d.scale < -400 then .zero negative
  else ofQuotient negative (d.digits * tenTo d.exponent.toNat) (tenTo (-d.exponent).toNat)

/-- Whether a number is zero, with either sign. -/
def isZero : Double → Bool
  | zero _ => true
  | _ => false

/-- Whether a number is infinite. -/
def isInfinite : Double → Bool
  | infinite _ => true
  | _ => false

/-- A text with the sign of a number. -/
def signed (negative : Bool) (text : List Char) : String :=
  String.ofList (if negative then '-' :: text else text)

/-- The positional text of a number, however long it is. -/
def text : Double → String
  | zero negative => signed negative ['0']
  | finite negative size => signed negative size.shortest.plain
  | infinite negative => signed negative ['i', 'n', 'f']
  | nan => "NaN"

end Double

end Scaffold
