import Scaffold.BaseCode.Basic
import Scaffold.Error.Run
import Scaffold.Text.Decoded

/-!
# Base code from a directory

Every file below a directory is a file of the base code, under its path from there; files that are
no text are left out. A backslash in a name counts as a slash.
-/

namespace Scaffold

/-- A file below a directory: its path from there, and its text if it is one. -/
structure FoundFile where
  path : String
  text? : Option String
  deriving DecidableEq, Repr

/-- The path that a file is known by in the base code. -/
def FoundFile.name (f : FoundFile) : String :=
  String.ofList (f.path.toList.map fun c => if c = '\\' then '/' else c)

/-- A file below a directory as it is stored: the bytes of its path from there, and its own. Neither
need be text. -/
structure StoredFile where
  path : List UInt8
  bytes : ByteArray

/-- What is found of a file: bytes of its path that spell no character are replaced. -/
def StoredFile.found (f : StoredFile) : FoundFile := ⟨Text.shown f.path, String.fromUTF8? f.bytes⟩

namespace BaseCode

/-- The base code with the file of a directory put in. -/
def insertFound (base : BaseCode) (f : FoundFile) : Except Error BaseCode :=
  match f.text? with
  | none => .ok base
  | some text => return base.insert (← ContainedPath.relied f.name) text

/-- The base code that the files below `root` are, in the order in which they are found; `none` if
there is no such directory. -/
def ofDirectory (root : Path) (found? : Option (List FoundFile)) : Except Error BaseCode := do
  match found? with
  | none => throw (.run (.baseCodeUnavailable root.text "directory not found"))
  | some found =>
    let base ← found.foldlM insertFound empty
    base.ensureComplete.mapError .project
    return base

end BaseCode

end Scaffold
