/-!
# The shortest decimal that reads back

Of the decimals that are read as a given binary number the shortest is taken, and of those the
nearest. The search goes through the grids of multiples of a power of ten, from the coarsest
on, and looks at the two neighbours of the number on each grid. All of it is exact arithmetic
on natural numbers.
-/

namespace Scaffold

/-- The `n`th power of two. -/
def twoTo (n : Nat) : Nat := Nat.pow 2 n

/-- The `n`th power of ten. -/
def tenTo (n : Nat) : Nat := Nat.pow 10 n

/-- The number `digits · 10 ^ exponent`. -/
structure Decimal where
  digits : Nat
  exponent : Int
  deriving DecidableEq, Repr

/-- The number `mantissa · 2 ^ exponent`, a positive one that a double of 64 bits can hold. -/
structure Binary where
  mantissa : Nat
  exponent : Int
  deriving DecidableEq, Repr

namespace Binary

/-- The absolute value of a double, given by its bits; `none` for zero, infinity and what is no
number. -/
def ofBits? (bits : Nat) : Option Binary :=
  let fraction : Nat := bits % twoTo 52
  let scale : Nat := bits / twoTo 52 % twoTo 11
  if scale = 2047 ∨ (scale = 0 ∧ fraction = 0) then none
  else if scale = 0 then some ⟨fraction, -1074⟩
  else some ⟨twoTo 52 + fraction, (scale : Int) - 1075⟩

/-- Whether the next smaller double is only half as far away as the next greater one. -/
def isNarrowBelow (b : Binary) : Bool := b.mantissa == twoTo 52 && b.exponent > -1074

/-- Compares `x · 2 ^ (exponent - 2)` with `y · 10 ^ k`. -/
def compareQuarters (b : Binary) (x y : Nat) (k : Int) : Ordering :=
  let q := b.exponent - 2
  compare (x * twoTo q.toNat * tenTo (-k).toNat) (y * tenTo k.toNat * twoTo (-q).toNat)

/-- Whether `y · 10 ^ k` is read as the number: it lies within half a step of it, the ends included
if the mantissa is even. -/
def isReadFrom (b : Binary) (y : Nat) (k : Int) : Bool :=
  let low := 4 * b.mantissa - (if b.isNarrowBelow then 1 else 2)
  let high := 4 * b.mantissa + 2
  let closed := b.mantissa % 2 == 0
  let fromLow := b.compareQuarters low y k
  let toHigh := b.compareQuarters high y k
  (fromLow == .lt || (closed && fromLow == .eq)) && (toHigh == .gt || (closed && toHigh == .eq))

/-- The multiple of `10 ^ k` just below the number, in units of `10 ^ k`. -/
def floorAt (b : Binary) (k : Int) : Nat :=
  let q := b.exponent
  (b.mantissa * twoTo q.toNat * tenTo (-k).toNat) / (tenTo k.toNat * twoTo (-q).toNat)

/-- The neighbour of the number on the grid of `10 ^ k` that is read as the number, the nearer one
of two, the even one of two equally near. -/
def neighbour? (b : Binary) (k : Int) : Option Nat :=
  let below := b.floorAt k
  match below != 0 && b.isReadFrom below k, b.isReadFrom (below + 1) k with
  | false, false => none
  | true, false => some below
  | false, true => some (below + 1)
  | true, true =>
    match b.compareQuarters (8 * b.mantissa) (2 * below + 1) k with
    | .lt => some below
    | .gt => some (below + 1)
    | .eq => some (below + below % 2)

/-- The search from the grid of `10 ^ k` on to finer ones. -/
def searchFrom (b : Binary) : (fuel : Nat) → (k : Int) → Decimal
  | 0, k => ⟨b.floorAt k, k⟩
  | fuel + 1, k =>
    match b.neighbour? k with
    | some digits => ⟨digits, k⟩
    | none => b.searchFrom fuel (k - 1)

/-- The shortest decimal that is read as the number. A double lies below `10 ^ 309`, and with 17
digits it is read back, so that the grids from `10 ^ 309` to `10 ^ -342` are enough. -/
def shortest (b : Binary) : Decimal := b.searchFrom 651 309

end Binary

end Scaffold
