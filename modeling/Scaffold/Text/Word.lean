import Scaffold.Text.Case
import Scaffold.Text.Character

/-!
# Words of an identifier

An identifier or a display name falls into words at separators and where its letter case changes.
`camelCase` writes the words as one identifier.
-/

namespace Scaffold.Text

/-- `_`, `-` and blank characters stand between words and belong to none. -/
def isSeparator (c : Char) : Bool := c == '_' || c == '-' || isBlank c

/-- Whether a word that reaches `c` ends there, where `rest` is all that follows: at the end of the
text, before a separator, between a lower-case and an upper-case letter, and before the last
capital of an acronym when a lower-case letter follows that capital. -/
def endsWord (c : Char) (rest : List Char) : Bool :=
  match rest with
  | [] => true
  | d :: rest =>
    isSeparator d || (isLower c && isUpper d) || (isUpper c && isUpper d && rest.head?.any isLower)

/-- The words of a text, in the case they are written in. -/
def splitWords : List Char → List (List Char)
  | [] => []
  | c :: rest =>
    if isSeparator c then splitWords rest
    else if endsWord c rest then [c] :: splitWords rest
    else match splitWords rest with
      | [] => [[c]]
      | word :: words => (c :: word) :: words

/-- The text with its first character in upper case. -/
def capitalize : List Char → List Char
  | [] => []
  | c :: rest => upper c ++ rest

/-- The first word in lower case, then the others in lower case with a capital. -/
def camelCase (cs : List Char) : List Char :=
  match splitWords cs with
  | [] => []
  | word :: words => lowerText word ++ words.flatMap fun w => capitalize (lowerText w)

end Scaffold.Text

namespace Scaffold

/-- The string with its first character in upper case. -/
def capitalized (s : String) : String := String.ofList (Text.capitalize s.toList)

/-- The words of the string written as one camel-cased identifier. -/
def camelCased (s : String) : String := String.ofList (Text.camelCase s.toList)

end Scaffold
