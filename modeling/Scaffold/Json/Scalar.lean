import Scaffold.Json.Number

/-!
# Strings and words

Reading and skipping the values that are no brackets. A string that is skipped is not looked at as
closely as one that is read: a surrogate need not have a partner there.
-/

namespace Scaffold.Json

open Text (hexValue?)

/-- The code that four hexadecimal digits spell, and the cursor behind them. Four bytes count as
read even if they are no digits. -/
def readCode (c : Cursor) : Except Failure (Nat × Cursor) :=
  match c.rest with
  | d₁ :: d₂ :: d₃ :: d₄ :: _ =>
    match hexValue? d₁, hexValue? d₂, hexValue? d₃, hexValue? d₄ with
    | some v₁, some v₂, some v₃, some v₄ =>
      .ok (((v₁ * 16 + v₂) * 16 + v₃) * 16 + v₄, c.next.next.next.next)
    | _, _, _, _ => fail .badEscape (c.positionAfterBytes 4)
  | _ =>
    if 4 ≤ c.bytesLeft then fail .badEscape (c.positionAfterBytes 4)
    else fail .endInString (c.positionAfterBytes c.bytesLeft)

/-- Whether a code is the first half of a pair of surrogates. -/
def isLeading (code : Nat) : Bool := 0xD800 ≤ code && code < 0xDC00

/-- Whether a code is the second half of a pair of surrogates. -/
def isTrailing (code : Nat) : Bool := 0xDC00 ≤ code && code < 0xE000

/-- Goes on behind an expected character of a pair of surrogates; another one counts as read. -/
def expectInPair (expected : Char) (c : Cursor) : Except Failure Cursor :=
  match c.peek? with
  | none => fail .endInString c.position
  | some ch => if ch = expected then .ok c.next else fail .surrogateCutShort c.peeked

/-- The character that an escape stands for, where `c` stands behind its `\u`. -/
def readCodeEscape (c : Cursor) : Except Failure (Char × Cursor) := do
  let (code, c) ← readCode c
  if isTrailing code then fail .surrogateAlone c.position
  else if isLeading code then
    let c ← expectInPair '\\' c
    let c ← expectInPair 'u' c
    let (low, c) ← readCode c
    if isTrailing low then
      return (Char.ofNat ((code - 0xD800) * 0x400 + (low - 0xDC00) + 0x10000), c)
    else fail .surrogateAlone c.position
  else return (Char.ofNat code, c)

/-- The character that a letter behind a backslash stands for. -/
def escapeLetter? : Char → Option Char
  | '"' => some '"'
  | '\\' => some '\\'
  | '/' => some '/'
  | 'b' => some '\x08'
  | 'f' => some '\x0c'
  | 'n' => some '\n'
  | 'r' => some '\r'
  | 't' => some '\t'
  | _ => none

/-- The character that an escape stands for, where `c` stands behind its backslash. -/
def readEscape (c : Cursor) : Except Failure (Char × Cursor) :=
  match c.peek? with
  | none => fail .endInString c.position
  | some 'u' => readCodeEscape c.next
  | some letter =>
    match escapeLetter? letter with
    | some ch => .ok (ch, c.next)
    | none => fail .badEscape c.peeked

/-- The characters of a string up to its closing quote. Every character takes at least one of those
left, so that their number is `fuel` enough. -/
def readString : (fuel : Nat) → Cursor → Except Failure (List Char × Cursor)
  | 0, c => fail .endInString c.position
  | fuel + 1, c =>
    match c.peek? with
    | none => fail .endInString c.position
    | some ch =>
      if ch = '"' then .ok ([], c.next)
      else if ch = '\\' then do
        let (ch, c) ← readEscape c.next
        let (rest, c) ← readString fuel c
        return (ch :: rest, c)
      else if ch.toNat < 0x20 then fail .controlCharacter c.peeked
      else do
        let (rest, c) ← readString fuel c.next
        return (ch :: rest, c)

/-- The string at a cursor that stands behind the opening quote. -/
def stringAt (c : Cursor) : Except Failure (String × Cursor) := do
  let (cs, c) ← readString (c.rest.length + 1) c
  return (String.ofList cs, c)

/-- The cursor behind an escape, where `c` stands behind its backslash. -/
def skipEscape (c : Cursor) : Except Failure Cursor :=
  match c.peek? with
  | none => fail .endInString c.position
  | some 'u' => (·.2) <$> readCode c.next
  | some letter => if (escapeLetter? letter).isSome then .ok c.next else fail .badEscape c.peeked

/-- The cursor behind the closing quote of a string. A control character is reported where
it begins. -/
def skipStringFrom : (fuel : Nat) → Cursor → Except Failure Cursor
  | 0, c => fail .endInString c.position
  | fuel + 1, c =>
    match c.peek? with
    | none => fail .endInString c.position
    | some ch =>
      if ch = '"' then .ok c.next
      else if ch = '\\' then do skipStringFrom fuel (← skipEscape c.next)
      else if ch.toNat < 0x20 then fail .controlCharacter c.position
      else skipStringFrom fuel c.next

/-- The cursor behind a string, where `c` stands behind the opening quote. -/
def skipString (c : Cursor) : Except Failure Cursor := skipStringFrom (c.rest.length + 1) c

/-- The cursor behind the letters of a word. -/
def skipWord : (letters : List Char) → Cursor → Except Failure Cursor
  | [], c => .ok c
  | letter :: letters, c =>
    match c.peek? with
    | none => fail .endInValue c.position
    | some ch => if ch = letter then skipWord letters c.next else fail .badWord c.peeked

/-- What stands at a cursor, for a report that something else was expected. A bracket is not gone
into. -/
def foundAt (c : Cursor) : Except Failure (Found × Cursor) :=
  match c.peek? with
  | some 'n' => return (.null, ← skipWord "ull".toList c.next)
  | some 't' => return (.bool true, ← skipWord "rue".toList c.next)
  | some 'f' => return (.bool false, ← skipWord "alse".toList c.next)
  | some '-' => numberFound true c.next
  | some '"' => do
    let (s, c) ← stringAt c.next
    return (.string s, c)
  | some '[' => .ok (.array, c)
  | some '\x7b' => .ok (.object, c)
  | some ch => if ch.isDigit then numberFound false c else fail .noValue c.peeked
  | none => fail .noValue c.peeked

/-- Fails since something else than expected stands at a cursor. -/
def failExpecting {α : Type} (expected : String) (c : Cursor) : Except Failure α := do
  let (found, c) ← foundAt c
  fail (.wrongKind found expected) c.position

/-- The cursor at the next value. -/
def toValue (c : Cursor) : Except Failure Cursor :=
  let c := c.skipSpace
  if c.rest.isEmpty then fail .endInValue c.position else .ok c

/-- Reads a string; `expected` says what it is for. -/
def stringFor (expected : String) : Reader String := fun c => do
  let c ← toValue c
  if c.peek? = some '"' then stringAt c.next else failExpecting expected c

/-- Reads a string. -/
def string : Reader String := stringFor "a string"

/-- Reads a truth value. -/
def bool : Reader Bool := fun c => do
  let c ← toValue c
  match c.peek? with
  | some 't' => return (true, ← skipWord "rue".toList c.next)
  | some 'f' => return (false, ← skipWord "alse".toList c.next)
  | _ => failExpecting "a boolean" c

/-- Reads the word for no value where nothing else may stand. -/
def unit : Reader Unit := fun c => do
  let c ← toValue c
  if c.peek? = some 'n' then return ((), ← skipWord "ull".toList c.next)
  else failExpecting "unit" c

/-- Reads a value, or the word for none. -/
def optional {α : Type} (read : Reader α) : Reader (Option α) := fun c => do
  let c := c.skipSpace
  if c.peek? = some 'n' then return (none, ← skipWord "ull".toList c.next)
  else
    let (a, c) ← read c
    return (some a, c)

end Scaffold.Json
