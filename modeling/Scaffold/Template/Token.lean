/-!
# Tokens of a template

A template carries tokens: an identifier between the marks `{%` and `%}`. Everything else, malformed
marks included, is literal text.
-/

namespace Scaffold.Template

/-- The mark before a token's name. -/
def opening : List Char := ['{', '%']

/-- The mark behind a token's name. -/
def closing : List Char := ['%', '}']

/-- The token with the given name. -/
def delimited (name : String) : String := "\x7b%" ++ name ++ "%\x7d"

/-- Characters that a name may begin with. -/
def startsIdentifier (c : Char) : Bool := c.isAlpha || c == '_'

/-- Characters that a name may go on with. -/
def continuesIdentifier (c : Char) : Bool := c.isAlphanum || c == '_'

/-- An ASCII letter or `_`, then ASCII letters, digits and `_`. -/
def isIdentifier : List Char → Bool
  | [] => false
  | c :: cs => startsIdentifier c && cs.all continuesIdentifier

/-- What stands before the first closing mark of a text, if it has one. -/
def untilClosing? : List Char → Option (List Char)
  | [] => none
  | c :: cs =>
    if closing.isPrefixOf (c :: cs) then some [] else (untilClosing? cs).map (c :: ·)

/-- The name of the token that a text begins with: an opening mark, and an identifier up to the next
closing mark. -/
def tokenAtHead? (text : List Char) : Option (List Char) :=
  if opening.isPrefixOf text then (untilClosing? (text.drop 2)).filter isIdentifier else none

/-- The scan of `findTokens`; the first `skip` characters belong to a token already found. -/
def findFrom : (skip : Nat) → List Char → List (List Char)
  | _, [] => []
  | skip + 1, _ :: text => findFrom skip text
  | 0, c :: text =>
    match tokenAtHead? (c :: text) with
    | some name => name :: findFrom (name.length + 3) text
    | none => findFrom 0 text

/-- The names of the tokens of a text, in order of appearance. -/
def findTokens (text : List Char) : List (List Char) := findFrom 0 text

end Scaffold.Template
