import Scaffold.Decimal.Text
import Scaffold.Json.Fault
import Scaffold.Text.Character

/-!
# Numbers

A document of a project holds no numbers where it is right, so that a number is read only to be
reported or skipped. An integer of up to 64 bits is reported as it stands; any other number is
rounded to a double, of which the shortest digits are reported.
-/

namespace Scaffold.Json

open Text (digitValue)

/-- The text of a positive number by its shortest digits: positional from a hundred-thousandth to
below `10 ^ 16`, else with an exponent. -/
def decimalText (d : Decimal) : List Char :=
  if -5 ≤ d.scale ∧ d.scale ≤ 15 then d.pointed else d.scientific

/-- The text of a finite double. -/
def floatText (x : Float) : String :=
  let bits := x.toBits.toNat
  let sign := if bits < twoTo 63 then [] else ['-']
  String.ofList <| sign ++ match Binary.ofBits? bits with
    | none => ['0', '.', '0']
    | some b => decimalText b.shortest

/-- Appends digits to a number as long as it does not exceed the limit; gives the number and how
many digits it has taken. -/
def appendDigits (limit number : Nat) : List Char → Nat × Nat
  | [] => (number, 0)
  | d :: digits =>
    let longer := 10 * number + digitValue d
    if longer ≤ limit then
      let (number, taken) := appendDigits limit longer digits
      (number, taken + 1)
    else (number, 0)

/-- A power of ten as a double. -/
def powerOfTen (k : Nat) : Float := Float.ofScientific 1 false k

/-- The double `x · 10 ^ exponent`, with one rounding for every factor; `none` if it is too large. A
number too small for one factor is first divided by `10 ^ 308`; since that gives zero after a few
times, a little `fuel` is enough. -/
def scaled? (x : Float) (exponent : Int) : (fuel : Nat) → Option Float
  | 0 => some x
  | fuel + 1 =>
    if exponent.natAbs ≤ 308 then
      if 0 ≤ exponent then
        let y := x * powerOfTen exponent.natAbs
        if y.isInf then none else some y
      else some (x / powerOfTen exponent.natAbs)
    else if x == 0 then some x
    else if 0 ≤ exponent then none
    else scaled? (x / powerOfTen 308) (exponent + 308) fuel

/-- The digits at a cursor, and the cursor behind them. -/
def digitRun (c : Cursor) : List Char × Cursor :=
  (c.rest.takeWhile Char.isDigit, c.skipWhile Char.isDigit)

/-- The number `significand · 10 ^ exponent` before `c`, as a double. -/
def floatFound (negative : Bool) (significand : Nat) (exponent : Int) (c : Cursor) :
    Except Failure (Found × Cursor) :=
  match scaled? (UInt64.ofNat significand).toFloat exponent 4 with
  | none => fail .numberTooLarge c.position
  | some x => .ok (.float (floatText (if negative then -x else x)), c)

/-- Reads an exponent at its `e`; the number is `significand · 10 ^ exponent` up to there. -/
def exponentFound (negative : Bool) (significand : Nat) (exponent : Int) (c : Cursor) :
    Except Failure (Found × Cursor) :=
  let c := c.next
  let down := c.peek? == some '-'
  let c := if down || c.peek? == some '+' then c.next else c
  match digitRun c with
  | ([], _) =>
    match c.peek? with
    | none => fail .endInValue c.position
    | some _ => fail .badNumber c.peeked
  | (digits, rest) =>
    let (power, taken) := appendDigits (twoTo 31 - 1) 0 digits
    if taken < digits.length then
      if significand ≠ 0 ∧ !down then fail .numberTooLarge (c.positionAfterBytes (taken + 1))
      else .ok (.float (if negative then "-0.0" else "0.0"), rest)
    else floatFound negative significand (exponent + if down then -(power : Int) else power) rest

/-- Reads a fraction at its point; the number is `significand · 10 ^ exponent` up to there. -/
def fractionFound (negative : Bool) (significand : Nat) (exponent : Int) (c : Cursor) :
    Except Failure (Found × Cursor) :=
  let c := c.next
  match digitRun c with
  | ([], _) =>
    match c.peek? with
    | none => fail .endInValue c.position
    | some _ => fail .badNumber c.peeked
  | (digits, rest) =>
    let (significand, taken) := appendDigits (twoTo 64 - 1) significand digits
    let exponent := exponent - taken
    match rest.peek? with
    | some 'e' | some 'E' => exponentFound negative significand exponent rest
    | _ => floatFound negative significand exponent rest

/-- Reads a number behind its sign. -/
def numberFound (negative : Bool) (c : Cursor) : Except Failure (Found × Cursor) :=
  match digitRun c with
  | ([], _) =>
    match c.peek? with
    | none => fail .endInValue c.position
    | some _ => fail .badNumber c.peeked
  | ('0' :: _ :: _, _) => fail .badNumber c.next.peeked
  | (digits, rest) =>
    let (significand, taken) := appendDigits (twoTo 64 - 1) 0 digits
    let dropped := digits.length - taken
    match rest.peek? with
    | some '.' => fractionFound negative significand dropped rest
    | some 'e' | some 'E' => exponentFound negative significand dropped rest
    | _ =>
      if dropped ≠ 0 then floatFound negative significand dropped rest
      else if !negative then .ok (.integer significand, rest)
      else if significand = 0 ∨ twoTo 63 < significand then floatFound negative significand 0 rest
      else .ok (.integer (-significand), rest)

/-- The cursor behind a run of digits that has at least one. The character that stands in the place
of the first counts as read. -/
def skipDigits (c : Cursor) : Except Failure Cursor :=
  match digitRun c with
  | ([], _) => fail .badNumber c.peeked
  | (_, rest) => .ok rest

/-- The cursor behind an exponent, if there is one. -/
def skipExponent (c : Cursor) : Except Failure Cursor :=
  match c.peek? with
  | some 'e' | some 'E' =>
    let c := c.next
    skipDigits (if c.peek? == some '-' || c.peek? == some '+' then c.next else c)
  | _ => .ok c

/-- The cursor behind a number, where `c` stands behind its sign. -/
def skipNumber (c : Cursor) : Except Failure Cursor := do
  match c.peek?, c.next.peek? with
  | some '0', some d => if d.isDigit then fail .badNumber c.next.peeked
  | _, _ => pure ()
  let c ← skipDigits c
  match c.peek? with
  | some '.' => skipExponent (← skipDigits c.next)
  | _ => skipExponent c

end Scaffold.Json
