import Scaffold.Assembly.Tree

/-!
# Output trees with the paths of the system

An output tree may be built from any paths of the system that are contained. It is checked and
looked up by what the paths mean, as their bytes have it.
-/

namespace Scaffold

/-- An entry of a tree, at any path of the system. -/
inductive RawTreeEntry where
  | directory (path : ContainedRawPath)
  | file (path : ContainedRawPath) (content : String)
  deriving DecidableEq

/-- The path of an entry. -/
def RawTreeEntry.path : RawTreeEntry → ContainedRawPath
  | directory path => path
  | file path _ => path

/-- Directories and files that are to be made, at any paths of the system. -/
structure RawTree where
  entries : List RawTreeEntry
  deriving DecidableEq

namespace RawTree

/-- The files with their contents. -/
def files (t : RawTree) : List (ContainedRawPath × String) :=
  t.entries.filterMap fun
    | .file path content => some (path, content)
    | .directory _ => none

/-- The content of the first file at a path. -/
def content? (t : RawTree) (p : RawPath) : Option String :=
  (t.files.find? fun f => f.1.path.same p).map (·.2)

/-- A tree may be written if it has entries and no two of them have one path. -/
def validate (t : RawTree) : Except ProjectError Unit :=
  if t.entries.isEmpty then .error (.invalidProject "Generated output is empty")
  else match OutputTree.firstRepeated? [] (t.entries.map (·.path.spelled)) with
    | some p => .error (.duplicatePath (RawPath.ofSpelled p.path).display)
    | none => .ok ()

end RawTree

end Scaffold
