import Scaffold.Error.Project

/-!
# Output trees

What an application consists of before it is written: directories and files, in the order in which
they are to be made.
-/

namespace Scaffold

/-- One step of writing an application. -/
inductive TreeEntry where
  | directory (path : ContainedPath)
  | file (path : ContainedPath) (content : String)
  deriving DecidableEq

/-- Where the entry belongs. -/
def TreeEntry.path : TreeEntry → ContainedPath
  | directory path => path
  | file path _ => path

/-- The directories and files of an application, in the order of their making. -/
structure OutputTree where
  entries : List TreeEntry
  deriving DecidableEq

namespace OutputTree

/-- The tree without entries. -/
def empty : OutputTree := ⟨[]⟩

/-- The tree with a directory behind its entries. -/
def withDirectory (t : OutputTree) (path : ContainedPath) : OutputTree :=
  ⟨t.entries ++ [.directory path]⟩

/-- The tree with a file behind its entries. -/
def withFile (t : OutputTree) (path : ContainedPath) (content : String) : OutputTree :=
  ⟨t.entries ++ [.file path content]⟩

/-- The files with their contents. -/
def files (t : OutputTree) : List (ContainedPath × String) :=
  t.entries.filterMap fun
    | .file path content => some (path, content)
    | .directory _ => none

/-- The directories. -/
def directories (t : OutputTree) : List ContainedPath :=
  t.entries.filterMap fun
    | .directory path => some path
    | .file .. => none

/-- The content of the first file at a path. -/
def content? (t : OutputTree) (p : Path) : Option String :=
  (t.files.find? fun f => f.1.path.same p).map (·.2)

/-- The first of a list of paths that names the same place as an earlier one; `seen` are the keys of
those passed. -/
def firstRepeated? (seen : List (List (List Nat))) : List ContainedPath → Option ContainedPath
  | [] => none
  | p :: rest =>
    if seen.contains p.path.key then some p else firstRepeated? (p.path.key :: seen) rest

/-- A tree may be written if it has entries and no two of them have one path. -/
def validate (t : OutputTree) : Except ProjectError Unit :=
  if t.entries.isEmpty then .error (.invalidProject "Generated output is empty")
  else match firstRepeated? [] (t.entries.map TreeEntry.path) with
    | some p => .error (.duplicatePath p.display)
    | none => .ok ()

end OutputTree

end Scaffold
