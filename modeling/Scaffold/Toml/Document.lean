import Scaffold.Toml.Quoted
import Scaffold.Toml.Scalar
import Scaffold.Toml.Table

/-!
# TOML documents

A document is a list of lines: headers, and keys with their values. Reading it gives its members, or
nothing if the text is no document.
-/

namespace Scaffold.Toml

/-! ## Blanks, line breaks and comments -/

/-- What follows the blanks of a line. -/
def skipBlanks (cs : List Char) : List Char := cs.dropWhile isBlank

/-- What follows blanks, line breaks and comments. A comment may not hold control characters. -/
def skipLines : (inComment : Bool) → List Char → Option (List Char)
  | _, [] => some []
  | inComment, c :: rest =>
    if c = '\n' then skipLines false rest
    else if inComment then if isControl c then none else skipLines true rest
    else if isBlank c then skipLines false rest
    else if c = '#' then skipLines true rest
    else some (c :: rest)

/-- What follows the rest of a line, which may hold blanks and a comment. -/
def endLine (cs : List Char) : Option (List Char) :=
  match skipBlanks cs with
  | [] => some []
  | '\n' :: rest => some rest
  | '#' :: rest => do
    guard !((rest.takeWhile (· ≠ '\n')).any isControl)
    return (rest.dropWhile (· ≠ '\n')).drop 1
  | _ => none

/-! ## Keys -/

/-- Reads one part of a key. -/
def keyPart (cs : List Char) : Option (String × List Char) :=
  match cs with
  | '"' :: rest => quotedText '"' false rest
  | '\'' :: rest => quotedText '\'' false rest
  | _ =>
    let name := cs.takeWhile isKeyChar
    if name.isEmpty then none else some (String.ofList name, cs.dropWhile isKeyChar)

/-- Reads a dotted key with the blanks around it. Every part takes a character, so that as many as
there are is `fuel` enough. -/
def keyFrom : (fuel : Nat) → List Char → Option (List String × List Char)
  | 0, _ => none
  | fuel + 1, cs => do
    let (part, rest) ← keyPart (skipBlanks cs)
    match skipBlanks rest with
    | '.' :: rest =>
      let (parts, rest) ← keyFrom fuel rest
      return (part :: parts, rest)
    | rest => return ([part], rest)

/-- Reads a dotted key with the blanks around it. -/
def dottedKey (cs : List Char) : Option (List String × List Char) := keyFrom cs.length cs

/-! ## Values -/

/-- No arrays and inline tables are nested more deeply. -/
def maxDepth : Nat := 80

/-- Reads an unquoted value. A date and a time may have a blank between them. -/
def scalar (cs : List Char) : Option (Value × List Char) := do
  let run := cs.takeWhile isScalarChar
  let rest := cs.dropWhile isScalarChar
  match rest with
  | ' ' :: d :: more =>
    if isDate run && d.isDigit then
      let time := (d :: more).takeWhile isScalarChar
      return (← scalar? (run ++ ' ' :: time), (d :: more).dropWhile isScalarChar)
  | _ => pure ()
  return (← scalar? run, rest)

mutual

/-- Reads a value, in which brackets may be nested `depth` deep. Every step that calls for
another one takes a character or is followed by one that does, so that twice their number is
`fuel` enough. -/
def valueFrom : (fuel depth : Nat) → List Char → Option (Value × List Char)
  | 0, _, _ => none
  | fuel + 1, depth, cs =>
    match cs, depth with
    | '"' :: rest, _ => (quotedText '"' true rest).map fun (s, rest) => (.string s, rest)
    | '\'' :: rest, _ => (quotedText '\'' true rest).map fun (s, rest) => (.string s, rest)
    | '[' :: rest, depth + 1 => (itemsFrom fuel depth rest).map fun (vs, rest) => (.array vs, rest)
    | '\x7b' :: rest, depth + 1 => do
      let (assignments, rest) ← assignmentsFrom fuel depth rest
      let members ← Members.assignAll assignments []
      return (.table (doneMembers members), rest)
    | _, _ => scalar cs

/-- Reads the items of an array up to its bracket. -/
def itemsFrom : (fuel depth : Nat) → List Char → Option (List Value × List Char)
  | 0, _, _ => none
  | fuel + 1, depth, cs => do
    match ← skipLines false cs with
    | ']' :: rest => return ([], rest)
    | cs =>
      let (v, rest) ← valueFrom fuel depth cs
      match ← skipLines false rest with
      | ']' :: rest => return ([v], rest)
      | ',' :: rest =>
        let (vs, rest) ← itemsFrom fuel depth rest
        return (v :: vs, rest)
      | _ => none

/-- Reads the keys and values of an inline table up to its brace. -/
def assignmentsFrom :
    (fuel depth : Nat) → List Char → Option (List (List String × Value) × List Char)
  | 0, _, _ => none
  | fuel + 1, depth, cs => do
    match ← skipLines false cs with
    | '\x7d' :: rest => return ([], rest)
    | cs =>
      let (key, rest) ← dottedKey cs
      guard (rest.head? == some '=')
      let (v, rest) ← valueFrom fuel depth (skipBlanks (rest.drop 1))
      match ← skipLines false rest with
      | '\x7d' :: rest => return ([(key, v)], rest)
      | ',' :: rest =>
        let (more, rest) ← assignmentsFrom fuel depth rest
        return ((key, v) :: more, rest)
      | _ => none

end

/-! ## Lines -/

/-- A header: the key of its table, and whether there may be several of them. -/
structure Header where
  key : List String
  repeated : Bool

/-- A line that means something. -/
inductive Line where
  | header (h : Header)
  | assignment (key : List String) (v : Value)

/-- Reads a header behind its brackets, which are as many as those that end it. -/
def headerLine (repeated : Bool) (cs : List Char) : Option (Line × List Char) := do
  let (key, rest) ← dottedKey cs
  let closing := if repeated then [']', ']'] else [']']
  guard (closing.isPrefixOf rest)
  return (.header ⟨key, repeated⟩, rest.drop closing.length)

/-- Reads a key and its value. -/
def assignmentLine (cs : List Char) : Option (Line × List Char) := do
  let (key, rest) ← dottedKey cs
  guard (rest.head? == some '=')
  let cs := skipBlanks (rest.drop 1)
  let (v, rest) ← valueFrom (2 * cs.length + 2) maxDepth cs
  return (.assignment key v, rest)

/-- Reads the lines of a document. Every line takes a character, so that as many as there are is
`fuel` enough. -/
def linesFrom : (fuel : Nat) → List Char → Option (List Line)
  | 0, _ => none
  | fuel + 1, cs => do
    match ← skipLines false cs with
    | [] => return []
    | cs =>
      let (line, rest) ← match cs with
        | '[' :: '[' :: rest => headerLine true rest
        | '[' :: rest => headerLine false rest
        | _ => assignmentLine cs
      return line :: (← linesFrom fuel (← endLine rest))

/-- A header with the assignments that follow it; the first ones have none. -/
structure Section where
  header? : Option Header
  assignments : List (List String × Value)

/-- Groups lines under their headers. -/
def sections : List Line → Section × List Section
  | [] => (⟨none, []⟩, [])
  | .assignment key v :: rest =>
    let (first, others) := sections rest
    ({ first with assignments := (key, v) :: first.assignments }, others)
  | .header h :: rest =>
    let (first, others) := sections rest
    (⟨none, []⟩, { first with header? := some h } :: others)

/-- Adds a section to the members of a document. -/
def Section.addTo (s : Section) (m : Members) : Option Members :=
  match s.header? with
  | none => m.assignAll s.assignments
  | some h => m.enter h.repeated (·.assignAll s.assignments) h.key

/-- Replaces the line breaks of two characters by those of one. What is left of carriage returns is
refused as a control character. -/
def plainLines : List Char → List Char
  | '\r' :: '\n' :: rest => '\n' :: plainLines rest
  | c :: rest => c :: plainLines rest
  | [] => []

/-- The members of the document that a text is, or nothing. -/
def parse (text : String) : Option (List (String × Value)) := do
  let cs := plainLines text.toList
  let (first, others) := sections (← linesFrom (cs.length + 1) cs)
  let members ← (first :: others).foldlM (fun m s => s.addTo m) []
  return doneMembers members

end Scaffold.Toml
