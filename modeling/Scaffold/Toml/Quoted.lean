import Scaffold.Text.Character

/-!
# Quoted text in TOML

A text stands between quotes of one of two kinds, single or three in a row. Double quotes let a
backslash begin an escape; between simple quotes everything stands for itself. A text between three
quotes may have several lines. Line breaks are single characters here: a document's other line
breaks are replaced before it is read.
-/

namespace Scaffold.Toml

/-- Blanks within a line. -/
def isBlank (c : Char) : Bool := c == ' ' || c == '\t'

/-- The characters that may stand neither in a text nor in a comment. -/
def isControl (c : Char) : Bool := (c.toNat < 0x20 && c != '\t') || c.toNat == 0x7f

/-- The character that a letter behind a backslash stands for. -/
def escapeLetter? : Char → Option Char
  | '"' => some '"'
  | '\\' => some '\\'
  | 'b' => some '\x08'
  | 'e' => some '\x1b'
  | 'f' => some '\x0c'
  | 'n' => some '\n'
  | 'r' => some '\r'
  | 't' => some '\t'
  | _ => none

/-- How many hexadecimal digits follow a letter behind a backslash. -/
def escapeWidth? : Char → Option Nat
  | 'x' => some 2
  | 'u' => some 4
  | 'U' => some 8
  | _ => none

/-- The character that `width` hexadecimal digits spell, where there are so many and they are the
code of a character. -/
def spelled? (width : Nat) (digits : List Char) : Option Char := do
  guard (digits.length = width ∧ digits.all fun d => (Text.hexValue? d).isSome)
  let code := Text.numberOf 16 digits
  guard code.isValidChar
  return Char.ofNat code

/-- A text with its escapes resolved. A backslash that ends a line swallows the blanks and lines up
to the next character. -/
def unescape (cs : List Char) : Option (List Char) :=
  match cs with
  | [] => some []
  | ['\\'] => none
  | '\\' :: letter :: rest =>
    match escapeWidth? letter with
    | some width => do
      let c ← spelled? width (rest.take width)
      return c :: (← unescape (rest.drop width))
    | none =>
      match escapeLetter? letter with
      | some c => return c :: (← unescape rest)
      | none =>
        if ((letter :: rest).dropWhile isBlank).head? = some '\n' then
          unescape (rest.dropWhile fun c => isBlank c || c == '\n')
        else none
  | c :: rest => return c :: (← unescape rest)
termination_by cs.length
decreasing_by
  all_goals simp only [List.length_cons, List.length_drop]
  all_goals try omega
  have := (List.dropWhile_sublist (l := rest) fun c => isBlank c || c == '\n').length_le
  omega

/-- The text up to the quote that ends it on the same line. With `escapes` a backslash takes the
next character along. -/
def lineBody (quote : Char) (escapes : Bool) : List Char → Option (List Char × List Char)
  | [] => none
  | c :: rest =>
    if c = quote then some ([], rest)
    else if isControl c then none
    else if escapes && c == '\\' then
      match rest with
      | [] => none
      | d :: rest =>
        if isControl d then none
        else (lineBody quote escapes rest).map fun (body, rest) => (c :: d :: body, rest)
    else (lineBody quote escapes rest).map fun (body, rest) => (c :: body, rest)

/-- The text up to the three quotes that end it. Up to two more quotes before those belong to the
text. `passed` holds what was passed so far, the last first, of which the last `run` are quotes
in a row. -/
def longBody (quote : Char) (escapes : Bool) :
    (run : Nat) → (passed : List Char) → List Char → Option (List Char × List Char)
  | run, passed, [] =>
    if 3 ≤ run ∧ run ≤ 5 then some ((passed.drop 3).reverse, []) else none
  | run, passed, c :: rest =>
    if c = quote then longBody quote escapes (run + 1) (c :: passed) rest
    else if 3 ≤ run then
      if run ≤ 5 then some ((passed.drop 3).reverse, c :: rest) else none
    else if isControl c && c != '\n' then none
    else if escapes && c == '\\' then
      match rest with
      | [] => none
      | d :: rest => longBody quote escapes 0 (d :: c :: passed) rest
    else longBody quote escapes 0 (c :: passed) rest

/-- Reads a quoted text behind its first quote. Only with `long` it may stand between three quotes;
a line break right behind those does not count. -/
def quotedText (quote : Char) (long : Bool) (cs : List Char) : Option (String × List Char) := do
  let escapes := quote == '"'
  let (body, rest) ←
    if long && cs.take 2 == [quote, quote] then
      let cs := cs.drop 2
      longBody quote escapes 0 [] (if cs.head? == some '\n' then cs.drop 1 else cs)
    else lineBody quote escapes cs
  let body ← if escapes then unescape body else some body
  return (String.ofList body, rest)

end Scaffold.Toml
