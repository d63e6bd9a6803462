import Scaffold.Text.Character

/-!
# Dates and times

A date, a time of day, or a date with a time and possibly a distance from universal time. Reading
one gives its text in one spelling: a capital `T` between date and time, `Z` for universal time
itself, and no zeros at the end of a fraction.
-/

namespace Scaffold.Toml

/-- Reads a number of exactly two digits that is at most `limit`. -/
def twoDigits? (limit : Nat) : List Char → Option (Nat × List Char)
  | a :: b :: rest =>
    let n := Text.numberOf 10 [a, b]
    if a.isDigit && b.isDigit && n ≤ limit then some (n, rest) else none
  | _ => none

/-- How many days a month has. -/
def daysOfMonth (year month : Nat) : Nat :=
  if month = 2 then
    if (year % 4 = 0 ∧ year % 100 ≠ 0) ∨ year % 400 = 0 then 29 else 28
  else if month = 4 ∨ month = 6 ∨ month = 9 ∨ month = 11 then 30
  else 31

/-- Whether a text is a date, such as `1979-05-27`. -/
def isDate (cs : List Char) : Bool :=
  match cs with
  | [y₁, y₂, y₃, y₄, '-', m₁, m₂, '-', d₁, d₂] =>
    [y₁, y₂, y₃, y₄, m₁, m₂, d₁, d₂].all Char.isDigit &&
      (let year := Text.numberOf 10 [y₁, y₂, y₃, y₄]
       let month := Text.numberOf 10 [m₁, m₂]
       let day := Text.numberOf 10 [d₁, d₂]
       1 ≤ month && month ≤ 12 && 1 ≤ day && day ≤ daysOfMonth year month)
  | _ => false

/-- A fraction of a second to nine digits, without the zeros that it ends in; one digit stays. -/
def fractionText (digits : List Char) : List Char :=
  let kept := ((digits.take 9).reverse.dropWhile (· == '0')).reverse
  if kept.isEmpty then ['0'] else kept

/-- Reads a time of day, such as `07:32:00.5`; the seconds may be left out. Gives its text. -/
def time? (cs : List Char) : Option (List Char × List Char) := do
  let (_, rest) ← twoDigits? 23 cs
  guard (rest.head? == some ':')
  let (_, rest) ← twoDigits? 59 (rest.drop 1)
  let clock := cs.take 5
  if rest.head? != some ':' then return (clock, rest)
  let seconds := rest.take 3
  let (_, rest) ← twoDigits? 60 (rest.drop 1)
  if rest.head? != some '.' then return (clock ++ seconds, rest)
  let digits := (rest.drop 1).takeWhile Char.isDigit
  guard !digits.isEmpty
  return (clock ++ seconds ++ '.' :: fractionText digits, rest.drop (digits.length + 1))

/-- The text of a distance from universal time. No distance at all counts as forward. -/
def offset? (cs : List Char) : Option (List Char) :=
  match cs with
  | [z] => if z == 'Z' || z == 'z' then some ['Z'] else none
  | sign :: rest => do
    guard (sign == '+' || sign == '-')
    let (hours, rest) ← twoDigits? 23 rest
    guard (rest.head? == some ':')
    let (minutes, rest) ← twoDigits? 59 (rest.drop 1)
    guard rest.isEmpty
    return (if hours = 0 ∧ minutes = 0 then '+' else sign) :: cs.drop 1
  | [] => none

/-- The text of a time of day that may be followed by a distance from universal time. -/
def zonedTime? (cs : List Char) : Option (List Char) := do
  let (time, rest) ← time? cs
  if rest.isEmpty then return time
  return time ++ (← offset? rest)

/-- The text of a date, a time of day, or both with one character between them. -/
def moment? (cs : List Char) : Option String :=
  String.ofList <$>
    if isDate (cs.take 10) then
      match cs.drop 10 with
      | [] => some cs
      | between :: time => do
        guard (between == 'T' || between == 't' || between == ' ')
        return cs.take 10 ++ 'T' :: (← zonedTime? time)
    else do
      let (time, rest) ← time? cs
      guard rest.isEmpty
      return time

end Scaffold.Toml
