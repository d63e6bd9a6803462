import Scaffold.Decimal.Shortest

/-!
# Texts of decimals

A decimal is written positionally, with a point among its digits, or with an exponent.
-/

namespace Scaffold.Decimal

/-- The digits of a decimal. -/
def chars (d : Decimal) : List Char := (toString d.digits).toList

/-- The power of ten of the first digit. -/
def scale (d : Decimal) : Int := d.exponent + d.chars.length - 1

/-- The digits before the point, of which there is one at least, and those behind it. -/
def parts (d : Decimal) : List Char × List Char :=
  let point := d.scale + 1
  if point ≤ 0 then (['0'], List.replicate (-point).toNat '0' ++ d.chars)
  else
    (d.chars.take point.toNat ++ List.replicate (point.toNat - d.chars.length) '0',
      d.chars.drop point.toNat)

/-- The positional text with a digit at least on either side of the point. -/
def pointed (d : Decimal) : List Char :=
  let (whole, fraction) := d.parts
  whole ++ '.' :: (if fraction.isEmpty then ['0'] else fraction)

/-- The positional text, without a point where nothing follows it. -/
def plain (d : Decimal) : List Char :=
  let (whole, fraction) := d.parts
  if fraction.isEmpty then whole else whole ++ '.' :: fraction

/-- The text with an exponent: one digit before the point, and a sign before the exponent. -/
def scientific (d : Decimal) : List Char :=
  let fraction := d.chars.drop 1
  d.chars.take 1 ++ (if fraction.isEmpty then [] else '.' :: fraction) ++
    'e' :: (if d.scale < 0 then '-' else '+') :: (toString d.scale.natAbs).toList

end Scaffold.Decimal
