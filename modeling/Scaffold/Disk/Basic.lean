import Scaffold.Path.Map
import Scaffold.Path.Raw

/-!
# Disks

A disk is a tree of directories and files, kept as a map from the spellings of absolute paths.
A path is looked up piece by piece from where one stands: every piece but the last has to lead
to a directory.
-/

namespace Scaffold

/-- What stands at a place of a disk. -/
inductive Node where
  | file (bytes : ByteArray)
  | directory
  /-- Something that is neither, such as a link. It is never followed. -/
  | other

/-- Whether a node is a directory. -/
def Node.isDirectory : Node → Bool
  | directory => true
  | _ => false

/-- Whether a node is a file. -/
def Node.isFile : Node → Bool
  | file _ => true
  | _ => false

/-- A place on a disk: the names from the root on. -/
abbrev Place := List FileName

namespace Place

/-- The absolute path of a place in its spelling. -/
def spelled (place : Place) : Path := ⟨"/" ++ "/".intercalate (place.map FileName.spelled)⟩

/-- The absolute path of a place as it is shown. -/
def path (place : Place) : Path := ⟨"/" ++ "/".intercalate (place.map FileName.shown)⟩

/-- The place of an absolute path in its spelling, if it has no `..`. -/
def ofSpelled (p : Path) : Place :=
  p.components.filterMap fun
    | .name text => some (.ofChars text.toList)
    | _ => none

end Place

/-- The reasons for which a disk refuses an operation. -/
inductive DiskError where
  | notFound
  | exists
  | notDirectory
  | isDirectory
  | invalidArgument
  | nameTooLong
  | notEmpty
  /-- A path holds the byte zero, which no name may. -/
  | zeroInName
  | notText
  deriving DecidableEq, Repr

/-- The wording of a reason. -/
def DiskError.message : DiskError → String
  | notFound => "No such file or directory (os error 2)"
  | «exists» => "File exists (os error 17)"
  | notDirectory => "Not a directory (os error 20)"
  | isDirectory => "Is a directory (os error 21)"
  | invalidArgument => "Invalid argument (os error 22)"
  | nameTooLong => "File name too long (os error 36)"
  | notEmpty => "Directory not empty (os error 39)"
  | zeroInName => "file name contained an unexpected NUL byte"
  | notText => "stream did not contain valid UTF-8"

/-- A tree of directories and files, and the directory in it that one stands in. The root itself is
always there. -/
structure Disk where
  nodes : PathMap Node := .empty
  here : Place := []

namespace Disk

/-- What stands at a place. -/
def node? (d : Disk) (place : Place) : Option Node :=
  if place.isEmpty then some .directory else d.nodes.find? place.spelled

/-- The disk with a node put at a place. -/
def put (d : Disk) (place : Place) (node : Node) : Disk :=
  { d with nodes := d.nodes.insert place.spelled node }

/-- What a path leads to. -/
inductive Target where
  /-- Something is there. -/
  | found (place : Place) (node : Node)
  /-- Nothing is there, but the directory for it is; `asDirectory` tells that a slash follows. -/
  | vacant (place : Place) (asDirectory : Bool)

/-- No name is longer, in bytes. -/
def maxName : Nat := 255

/-- No path is as long, in bytes. -/
def maxPath : Nat := 4096

/-- Goes on along the pieces of a path from a place at which `node` stands. -/
def follow (d : Disk) : (place : Place) → (node : Node) → List FileName → Except DiskError Target
  | place, node, [] => .ok (.found place node)
  | place, node, piece :: rest =>
    if !node.isDirectory then .error .notDirectory
    else if Path.isIdle piece.chars then d.follow place node rest
    else if piece.chars = ['.', '.'] then d.follow place.dropLast .directory rest
    else if maxName < piece.bytes.length then .error .nameTooLong
    else
      let place := place ++ [piece]
      match d.node? place with
      | some node => d.follow place node rest
      | none =>
        if rest.all (·.bytes.isEmpty) then .ok (.vacant place (!rest.isEmpty)) else .error .notFound

/-- What a path leads to from where one stands. -/
def locate (d : Disk) (p : RawPath) : Except DiskError Target :=
  if p.bytes.contains 0 then .error .zeroInName
  else if p.bytes.isEmpty then .error .notFound
  else if maxPath ≤ p.bytes.length then .error .nameTooLong
  else d.follow (if p.isAbsolute then [] else d.here) .directory p.pieces

/-- The node that a path leads to, if there is one. -/
def lookUp (d : Disk) (p : RawPath) : Except DiskError (Place × Node) := do
  match ← d.locate p with
  | .found place node => return (place, node)
  | .vacant .. => throw .notFound

/-- Whether there is anything at a path. -/
def has (d : Disk) (p : RawPath) : Bool := (d.lookUp p).isOk

/-- Whether there is a file at a path. -/
def isFile (d : Disk) (p : RawPath) : Bool := (d.lookUp p).toOption.any (·.2.isFile)

/-- Whether there is a directory at a path. -/
def isDirectory (d : Disk) (p : RawPath) : Bool := (d.lookUp p).toOption.any (·.2.isDirectory)

/-- The bytes of a file. -/
def readBytes (d : Disk) (p : RawPath) : Except DiskError ByteArray := do
  match ← d.lookUp p with
  | (_, .file bytes) => return bytes
  | (_, .directory) => throw .isDirectory
  | (_, .other) => throw .invalidArgument

/-- The text of a file. -/
def readText (d : Disk) (p : RawPath) : Except DiskError String := do
  match String.fromUTF8? (← d.readBytes p) with
  | some text => return text
  | none => throw .notText

/-- Writes a file, in the place of one that is there. -/
def writeBytes (d : Disk) (p : RawPath) (bytes : ByteArray) : Except DiskError Disk := do
  match ← d.locate p with
  | .found place (.file _) => return d.put place (.file bytes)
  | .found _ _ => throw .isDirectory
  | .vacant place false => return d.put place (.file bytes)
  | .vacant _ true => throw .isDirectory

/-- Makes one directory. -/
def makeDirectory (d : Disk) (p : RawPath) : Except DiskError Disk := do
  match ← d.locate p with
  | .found .. => throw .exists
  | .vacant place _ => return d.put place .directory

/-- Tries to make the nearest of a path and its parents whose own directory is there, given the path
and its parents in turn. Gives the paths that were left out, the last first. -/
def makeNearest (d : Disk) : (upward left : List RawPath) → Except DiskError (Disk × List RawPath)
  | [], left => .ok (d, left)
  | p :: upward, left =>
    if p.bytes.isEmpty || p.parent?.isNone then .ok (d, left)
    else match d.makeDirectory p with
      | .ok d => .ok (d, left)
      | .error .notFound => d.makeNearest upward (p :: left)
      | .error .exists => if d.isDirectory p then .ok (d, left) else .error .exists
      | .error e => .error e

/-- Makes directories one after the other; one that is there already is passed by. -/
def makeEach (d : Disk) : List RawPath → Except DiskError Disk
  | [] => .ok d
  | p :: rest =>
    match d.makeDirectory p with
    | .ok d => d.makeEach rest
    | .error e => if e = .exists ∧ d.isDirectory p then d.makeEach rest else .error e

/-- Makes a directory and those it lies in. -/
def makeDirectories (d : Disk) (p : RawPath) : Except DiskError Disk := do
  let (d, left) ← d.makeNearest p.ancestors []
  d.makeEach left

/-- The disk without what lies below a place. -/
def clear (d : Disk) (place : Place) : Disk :=
  { d with nodes := d.nodes.filter fun q => q.same place.spelled || !q.startsWith place.spelled }

/-- Removes a directory with all that is in it. What a path ends in `.` for is emptied, but cannot
be removed itself. -/
def removeDirectory (d : Disk) (p : RawPath) : Disk × Except DiskError Unit :=
  match d.lookUp p with
  | .error e => (d, .error e)
  | .ok (place, .directory) =>
    let cleared := d.clear place
    if p.pieces.reverse.find? (!·.bytes.isEmpty) = some (.ofText ".") then
      (cleared, .error .invalidArgument)
    else ({ cleared with nodes := cleared.nodes.erase place.spelled }, .ok ())
  | .ok (_, .file _) => (d, .error .notDirectory)
  | .ok (place, .other) => ({ d with nodes := d.nodes.erase place.spelled }, .ok ())

/-- The places below a place, with what stands there, in the order of their paths. -/
def below (d : Disk) (place : Place) : List (Place × Node) :=
  (d.nodes.entries.filter fun e => e.1.startsWith place.spelled && !e.1.same place.spelled).map fun e =>
    (Place.ofSpelled e.1, e.2)

end Disk

end Scaffold
