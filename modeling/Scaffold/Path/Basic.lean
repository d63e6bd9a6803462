import Scaffold.Path.Segment

/-!
# Paths

A path is its text. What the text means is the list of its components: repeated slashes and inner
`.` segments mean nothing, a leading slash is the root, a leading `.` is kept. Paths are compared
and ordered by components, so that `a//b` and `a/b` are one place, while `./a` and `a` are two as
long as nothing stands before them.
-/

namespace Scaffold

/-- A path, as its text spells it. -/
structure Path where
  text : String
  deriving DecidableEq, Repr, Inhabited

namespace Path

/-- One step of a path. -/
inductive Component where
  | root
  | here
  | up
  | name (text : String)
  deriving DecidableEq, Repr

namespace Component

/-- The component as a path writes it. -/
def text : Component → String
  | root => "/"
  | here => "."
  | up => ".."
  | name text => text

/-- Components are ordered by their ranks: the root, then `.`, then `..`, then names by their
characters. -/
def rank : Component → List Nat
  | root => [0]
  | here => [1]
  | up => [2]
  | name text => 3 :: text.toList.map Char.toNat

end Component

/-- The characters of a path. -/
def chars (p : Path) : List Char := p.text.toList

/-- The path with the given characters. -/
def ofChars (cs : List Char) : Path := ⟨String.ofList cs⟩

/-- The empty path. -/
def empty : Path := ⟨""⟩

@[simp] theorem chars_ofChars (cs : List Char) : (ofChars cs).chars = cs := by
  simp [chars, ofChars]

/-- Whether a segment means nothing where it does not stand first. -/
def isIdle (segment : List Char) : Bool := segment.isEmpty || segment == ['.']

/-- The component that a segment stands for where it does not stand first. -/
def innerComponent? (segment : List Char) : Option Component :=
  if isIdle segment then none
  else if segment = ['.', '.'] then some .up
  else some (.name (String.ofList segment))

/-- The component that the first segment of a text stands for; `alone` tells that there is no
other. An empty segment before a slash is the root. -/
def firstComponent? (segment : List Char) (alone : Bool) : Option Component :=
  if segment.isEmpty then (if alone then none else some .root)
  else if segment = ['.'] then some .here
  else innerComponent? segment

/-- The components of a list of segments. -/
def componentsOf : List (List Char) → List Component
  | [] => []
  | first :: rest => (firstComponent? first rest.isEmpty).toList ++ rest.filterMap innerComponent?

/-- What a path means, step by step. -/
def components (p : Path) : List Component := componentsOf (segments p.chars)

/-- The ranks of the components, by which paths are ordered. -/
def key (p : Path) : List (List Nat) := p.components.map Component.rank

/-- Whether two paths mean the same place. -/
def same (p q : Path) : Bool := p.key == q.key

/-- The order of two paths. -/
def order (p q : Path) : Ordering :=
  if p.key < q.key then .lt else if p.key = q.key then .eq else .gt

/-- Whether a path starts at the root. -/
def isAbsolute (p : Path) : Bool := p.chars.head? == some '/'

/-- Whether a path means no step at all. -/
def isEmpty (p : Path) : Bool := p.components.isEmpty

/-- Whether `p` lies at or below `dir`, component by component. -/
def startsWith (p dir : Path) : Bool := dir.components.isPrefixOf p.components

/-- The segments of a path without its last component, if it has one that can be dropped. -/
def parentSegments? : List (List Char) → Option (List (List Char))
  | [] => none
  | first :: rest =>
    match rest.reverse.dropWhile isIdle with
    | [] => if first.isEmpty then none else some [[]]
    | _ :: before =>
      match before.dropWhile isIdle with
      | [] => some (if first.isEmpty then [[], []] else [first])
      | before => some (first :: before.reverse)

/-- The path without its last component, in the spelling it has there; `none` at the root and for
the empty path. -/
def parent? (p : Path) : Option Path :=
  (parentSegments? (segments p.chars)).map fun rest => ofChars (joinSegments rest)

/-- The path without its last component, empty where there is nothing to drop. -/
def parent (p : Path) : Path := p.parent?.getD empty

/-- The name that a path ends in. -/
def fileName? (p : Path) : Option String :=
  match p.components.getLast? with
  | some (.name text) => some text
  | _ => none

/-- What follows the last dot of a file name; a dot at the very start does not count. -/
def extension? (p : Path) : Option String := do
  let reversed := (← p.fileName?).toList.reverse
  match reversed.dropWhile (· ≠ '.') with
  | _ :: _ :: _ => some (String.ofList (reversed.takeWhile (· ≠ '.')).reverse)
  | _ => none

/-- `q` seen from `p`: an absolute path stays itself, another one is appended behind a slash. -/
def join (p q : Path) : Path :=
  if q.isAbsolute then q
  else if p.chars.getLast?.all (· = '/') then ⟨p.text ++ q.text⟩
  else ⟨p.text ++ "/" ++ q.text⟩

/-- The plainest path with the given components. -/
def ofComponents (cs : List Component) : Path :=
  cs.foldl (fun p c => p.join ⟨c.text⟩) empty

/-- The path itself, then its parent, its parent's parent and so on. -/
def ancestors (p : Path) : List Path :=
  p :: upward p.chars.length p
where
  /-- At most `fuel` parents of a path. A parent has fewer characters, so that the length of the
  path is fuel enough. -/
  upward : (fuel : Nat) → Path → List Path
    | 0, _ => []
    | fuel + 1, p => match p.parent? with
      | none => []
      | some q => q :: upward fuel q

end Path

end Scaffold
