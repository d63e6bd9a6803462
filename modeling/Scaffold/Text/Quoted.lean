import Scaffold.Text.Case
import Scaffold.Text.PrintData

/-!
# Quoted text

A text between double quotes that shows every character: quotes, backslashes and the usual controls
are escaped by a backslash, and what does not print is given by its code point in hexadecimal.
-/

namespace Scaffold.Text

open PrintData

/-- Whether a character stands for itself in a quoted text. A character that attaches to the one
before it does not, since there it would change the quote. -/
def isShown (c : Char) : Bool := !inSpans unprintable c.toNat && !inSpans graphemeExtend c.toNat

/-- The digits of a number in hexadecimal. -/
def hexDigits (n : Nat) : List Char := Nat.toDigits 16 n

/-- A character as it stands in a text between the given quotes. -/
def quotedChar (quotes : List Char) (c : Char) : List Char :=
  if c = '\x00' then ['\\', '0']
  else if c = '\t' then ['\\', 't']
  else if c = '\n' then ['\\', 'n']
  else if c = '\r' then ['\\', 'r']
  else if c = '\\' || quotes.contains c then ['\\', c]
  else if isShown c then [c]
  else ['\\', 'u', '\x7b'] ++ hexDigits c.toNat ++ ['\x7d']

/-- The text between double quotes; the characters of `quotes` are escaped within. -/
def quotedWith (quotes cs : List Char) : List Char :=
  '"' :: cs.flatMap (quotedChar quotes) ++ ['"']

end Scaffold.Text

namespace Scaffold

/-- A string between double quotes. -/
def quoted (s : String) : String := String.ofList (Text.quotedWith ['"'] s.toList)

/-- A path's text between double quotes, in which single quotes are escaped too. -/
def quotedPath (s : String) : String := String.ofList (Text.quotedWith ['"', '\''] s.toList)

end Scaffold
