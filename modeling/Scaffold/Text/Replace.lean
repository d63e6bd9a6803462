/-!
# Replacing tokens in a text

`replaceTokens` is one scan from left to right. Where a token stands, its value is written and the
scan goes on behind the token; a value is never looked at again.
-/

namespace Scaffold.Text

/-- What follows `token` in a text that begins with it. -/
def after? : (token text : List Char) → Option (List Char)
  | [], text => some text
  | _ :: _, [] => none
  | t :: token, c :: text => if t = c then after? token text else none

/-- The first pair of a list whose token stands at the head of the text. An empty token stands
nowhere. -/
def tokenAtHead? (pairs : List (List Char × List Char)) (text : List Char) :
    Option (List Char × List Char) :=
  pairs.find? fun (token, _) => !token.isEmpty && (after? token text).isSome

/-- The scan of `replaceTokens`; the first `skip` characters belong to a token already replaced. -/
def replaceFrom (pairs : List (List Char × List Char)) : (skip : Nat) → List Char → List Char
  | _, [] => []
  | skip + 1, _ :: text => replaceFrom pairs skip text
  | 0, c :: text =>
    match tokenAtHead? pairs (c :: text) with
    | some (token, value) => value ++ replaceFrom pairs (token.length - 1) text
    | none => c :: replaceFrom pairs 0 text

/-- The text with every token replaced by its value. -/
def replaceTokens (pairs : List (List Char × List Char)) (text : List Char) : List Char :=
  replaceFrom pairs 0 text

/-- The text with every occurrence of one token replaced. -/
def replaceAll (token value text : List Char) : List Char := replaceTokens [(token, value)] text

end Scaffold.Text
