import Scaffold.Path.Map
import Scaffold.Store.Basic

/-!
# The store in memory

Files and directories are kept apart, each under the path it was made with. A file needs the
directory it lies in; a removal takes everything below a path, component by component.
-/

namespace Scaffold

/-- What the store in memory holds. -/
structure Memory where
  files : PathMap String := .empty
  directories : PathSet := .empty

namespace Memory

/-- Nothing is stored. -/
def empty : Memory := {}

/-- The paths from the first component of a path to the whole. -/
def trail (p : Path) : List Path :=
  (List.range p.components.length).map fun n => Path.ofComponents (p.components.take (n + 1))

/-- Makes a directory and those it lies in. -/
def createDirectory (s : Memory) (p : Path) : Memory :=
  { s with directories := (trail p).foldl PathSet.add s.directories }

/-- Whether a file may be written at a path: it lies at the top or in a directory that is there. -/
def admits (s : Memory) (p : Path) : Bool :=
  match p.parent? with
  | none => true
  | some parent => parent.text.isEmpty || s.directories.contains parent

/-- Writes a file into a directory that is there. -/
def writeFile (s : Memory) (p : Path) (content : String) : Except Error Memory :=
  if s.admits p then .ok { s with files := s.files.insert p content }
  else .error (.run (.store p "Parent directory does not exist"))

/-- Whether there is a file or a directory at a path. -/
def has (s : Memory) (p : Path) : Bool := s.files.contains p || s.directories.contains p

/-- Removes everything at or below a path. -/
def removeDirectory (s : Memory) (p : Path) : Memory where
  files := s.files.filter fun q => !q.startsWith p
  directories := s.directories.filter fun q => !q.startsWith p

/-- Forgets everything. -/
def clear (_ : Memory) : Memory := empty

/-- The content of a file. -/
def read (s : Memory) (p : Path) : Except Error String :=
  match s.files.find? p with
  | some content => .ok content
  | none => .error (.run (.store p "No such file"))

/-- The paths of the files, in order. -/
def listFiles (s : Memory) : List Path := s.files.paths

/-- The store that keeps everything in memory. -/
def store : Store (StateM Memory) where
  createDirectory p := do
    modify fun s => s.createDirectory p
    return .ok ()
  writeFile p content := do
    match (← get).writeFile p content with
    | .ok s => set s; return .ok ()
    | .error e => return .error e
  has p := return (← get).has p
  removeDirectory p := do
    modify fun s => s.removeDirectory p
    return .ok ()

end Memory

end Scaffold
