import Scaffold.Json.Scalar

/-!
# Skipping values

A value nobody asked for is skipped. It has to be well formed, but may be nested to any depth: the
open brackets are kept in a list.
-/

namespace Scaffold.Json

/-- An open bracket. -/
inductive Bracket where
  | array
  | object
  deriving DecidableEq, Repr

namespace Bracket

/-- The character that closes a bracket. -/
def closing : Bracket → Char
  | array => ']'
  | object => '\x7d'

/-- The fault of a text that ends inside. -/
def endFault : Bracket → Fault
  | array => .endInArray
  | object => .endInObject

/-- The fault of an item without a comma before the next. -/
def commaFault : Bracket → Fault
  | array => .noCommaInArray
  | object => .noCommaInObject

end Bracket

/-- The cursor behind the colon after a key. -/
def skipColon (c : Cursor) : Except Failure Cursor :=
  let c := c.skipSpace
  match c.peek? with
  | some ':' => .ok c.next
  | some _ => fail .noColon c.peeked
  | none => fail .endInObject c.peeked

/-- The cursor behind the key of the next member and its colon. -/
def skipKey (c : Cursor) : Except Failure Cursor := do
  let c := c.skipSpace
  match c.peek? with
  | some '"' => skipColon (← skipString c.next)
  | some _ => fail .noKey c.peeked
  | none => fail .endInObject c.peeked

/-- What the skipping comes to next. -/
inductive SkipState where
  /-- The next value; the brackets around it are open, the nearest first. -/
  | value (around : List Bracket)
  /-- The end of a bracket, or a further item of it if `comma` tells that one came before. -/
  | item (comma : Bool) (bracket : Bracket) (around : List Bracket)

/-- What comes behind a value that the given brackets are open around; `none` if it is the value
that was to be skipped. -/
def SkipState.behind? : (around : List Bracket) → Option SkipState
  | [] => none
  | bracket :: around => some (.item true bracket around)

/-- One step of skipping: a scalar, an opening bracket, a closing bracket, or a comma; a key is
taken with what stands before it. -/
def skipStep (c : Cursor) : SkipState → Except Failure (Option SkipState × Cursor)
  | .value around => do
    let c ← toValue c
    let scalar (skipped : Except Failure Cursor) : Except Failure (Option SkipState × Cursor) := do
      return (SkipState.behind? around, ← skipped)
    match c.peek? with
    | some 'n' => scalar (skipWord "ull".toList c.next)
    | some 't' => scalar (skipWord "rue".toList c.next)
    | some 'f' => scalar (skipWord "alse".toList c.next)
    | some '-' => scalar (skipNumber c.next)
    | some '"' => scalar (skipString c.next)
    | some '[' => return (some (.item false .array around), c.next)
    | some '\x7b' => return (some (.item false .object around), c.next)
    | some ch => if ch.isDigit then scalar (skipNumber c) else fail .noValue c.peeked
    | none => fail .endInValue c.peeked
  | .item comma bracket around => do
    let c := c.skipSpace
    match c.peek? with
    | none => fail bracket.endFault c.peeked
    | some ch =>
      if ch = bracket.closing then return (SkipState.behind? around, c.next)
      else if comma ∧ ch ≠ ',' then fail bracket.commaFault c.peeked
      else
        let c := if comma then c.next else c
        let c ← if bracket = .object then skipKey c else pure c
        return (some (.value (bracket :: around)), c)

/-- The skipping from a state on. Every second step at the latest takes a character, so that twice
their number is `fuel` enough. -/
def skipFrom : (fuel : Nat) → SkipState → Cursor → Except Failure Cursor
  | 0, _, c => fail .endInValue c.position
  | fuel + 1, state, c => do
    match ← skipStep c state with
    | (none, c) => return c
    | (some state, c) => skipFrom fuel state c

/-- The cursor behind the next value, whatever it is. -/
def skipValue (c : Cursor) : Except Failure Cursor :=
  skipFrom (2 * c.rest.length + 2) (.value []) c

end Scaffold.Json
