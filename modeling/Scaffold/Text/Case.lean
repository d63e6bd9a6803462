import Scaffold.Text.CaseData

/-!
# Letter case

Case classes of characters and the full case mappings, under which one character may become several
(`ß` is `SS` in upper case). Within ASCII the mappings are those of the Latin letters. The lower
case of a whole text differs from that of its characters in one place: a capital sigma that ends a
word becomes `ς`.
-/

namespace Scaffold.Text

open CaseData

/-- Whether a table of `(first, last, step)` triples lists the code point `n`. -/
def inSteps (table : List (Nat × Nat × Nat)) (n : Nat) : Bool :=
  table.any fun (first, last, step) => first ≤ n && n ≤ last && (n - first) % step == 0

/-- Whether a table of `(first, last)` pairs lists the code point `n`. -/
def inSpans (table : List (Nat × Nat)) (n : Nat) : Bool :=
  table.any fun (first, last) => first ≤ n && n ≤ last

/-- What a table of shifts maps the code point `n` to. -/
def shift? (table : List (Nat × Nat × Nat × Nat)) (n : Nat) : Option Nat :=
  table.findSome? fun (first, last, step, target) =>
    if first ≤ n && n ≤ last && (n - first) % step == 0 then some (target + (n - first)) else none

/-- A case mapping beyond ASCII: an expansion, else a shift, else the character itself. -/
def mapCase (expansions : List (Nat × List Nat)) (shifts : List (Nat × Nat × Nat × Nat))
    (c : Char) : List Char :=
  match expansions.lookup c.toNat with
  | some codes => codes.map Char.ofNat
  | none => [(shift? shifts c.toNat).elim c Char.ofNat]

/-- Whether the character lies within ASCII. -/
def isAscii (c : Char) : Bool := c.toNat < 128

/-- Lower-case letters. -/
def isLower (c : Char) : Bool :=
  if isAscii c then c.isLower else inSteps lowercase c.toNat

/-- Upper-case letters. -/
def isUpper (c : Char) : Bool :=
  if isAscii c then c.isUpper else inSteps uppercase c.toNat

/-- Letters that have a case at all. -/
def isCased (c : Char) : Bool :=
  isLower c || isUpper c || inSpans titlecase c.toNat

/-- Characters that are skipped when the neighbours of a sigma are looked at. -/
def isCaseIgnorable (c : Char) : Bool := inSpans caseIgnorable c.toNat

/-- The upper case of a character. -/
def upper (c : Char) : List Char :=
  if isAscii c then [c.toUpper] else mapCase upperExpansions upperShifts c

/-- The lower case of a character by itself. -/
def lower (c : Char) : List Char :=
  if isAscii c then [c.toLower] else mapCase lowerExpansions lowerShifts c

/-- Whether the first character that counts for a sigma is cased. -/
def casedNext (cs : List Char) : Bool :=
  ((cs.dropWhile isCaseIgnorable).head?).any isCased

/-- Lower case of the characters `after`, where `before` holds those already passed, last first.
A `Σ` after a cased letter and not before one is a final sigma. -/
def lowerAfter : (before after : List Char) → List Char
  | _, [] => []
  | before, c :: after =>
    let mapped :=
      if c = 'Σ' then [if casedNext before && !casedNext after then 'ς' else 'σ'] else lower c
    mapped ++ lowerAfter (c :: before) after

/-- The lower case of a text. -/
def lowerText (cs : List Char) : List Char := lowerAfter [] cs

/-- A text with the differences of case folded away, for the comparisons that ignore case. -/
def foldCase (cs : List Char) : List Char := cs.flatMap fun c => (upper c).flatMap lower

end Scaffold.Text
