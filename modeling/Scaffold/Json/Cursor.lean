/-!
# Places in a text

A cursor is what is left to read of a text, together with the place reached. Places count lines from
one, and within a line the bytes already read.
-/

namespace Scaffold.Json

/-- A place in a text: the line, and the bytes read of it. -/
structure Position where
  line : Nat
  column : Nat
  deriving DecidableEq, Repr

namespace Position

/-- The place behind a character. -/
def after (p : Position) (c : Char) : Position :=
  if c = '\n' then ⟨p.line + 1, 0⟩ else ⟨p.line, p.column + c.utf8Size⟩

/-- The place behind the first byte of a character. -/
def afterByte (p : Position) (c : Char) : Position :=
  if c = '\n' then ⟨p.line + 1, 0⟩ else ⟨p.line, p.column + 1⟩

/-- The place `n` bytes further in a text. -/
def afterBytes (p : Position) : (n : Nat) → List Char → Position
  | _, [] => p
  | n, c :: text =>
    if c.utf8Size ≤ n then (p.after c).afterBytes (n - c.utf8Size) text
    else if n = 0 then p
    else ⟨p.line, p.column + n⟩

end Position

/-- The rest of a text and the place where it begins. -/
structure Cursor where
  rest : List Char
  position : Position
  deriving DecidableEq, Repr

namespace Cursor

/-- The start of a text. -/
def start (text : List Char) : Cursor := ⟨text, ⟨1, 0⟩⟩

/-- The next character. -/
def peek? (c : Cursor) : Option Char := c.rest.head?

/-- The cursor behind the next character. -/
def next (c : Cursor) : Cursor :=
  match c.rest with
  | [] => c
  | ch :: rest => ⟨rest, c.position.after ch⟩

/-- The place behind the first byte of the next character. -/
def peeked (c : Cursor) : Position :=
  match c.rest with
  | [] => c.position
  | ch :: _ => c.position.afterByte ch

/-- The cursor behind the characters from here on that satisfy a condition. -/
def skipWhile (c : Cursor) (skips : Char → Bool) : Cursor :=
  go c.rest c.position
where
  /-- Skips in `text`, which begins at `p`. -/
  go : List Char → Position → Cursor
    | [], p => ⟨[], p⟩
    | ch :: text, p => if skips ch then go text (p.after ch) else ⟨ch :: text, p⟩

/-- Whitespace between the tokens of a document. -/
def isSpace (c : Char) : Bool := c == ' ' || c == '\n' || c == '\t' || c == '\r'

/-- The cursor behind the whitespace. -/
def skipSpace (c : Cursor) : Cursor := c.skipWhile isSpace

/-- The place `n` bytes further. -/
def positionAfterBytes (c : Cursor) (n : Nat) : Position := c.position.afterBytes n c.rest

/-- Number of bytes that are left. -/
def bytesLeft (c : Cursor) : Nat := c.rest.foldl (fun n ch => n + ch.utf8Size) 0

end Cursor

end Scaffold.Json
