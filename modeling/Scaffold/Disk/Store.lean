import Scaffold.BaseCode.Directory
import Scaffold.Disk.Basic
import Scaffold.Store.Basic

/-!
# The store on a disk

A disk is written to like any store, with its own reasons for a refusal, and its directories can be
read as base code.
-/

namespace Scaffold

/-- The error for an operation on a path that a disk refused. -/
def DiskError.toError (doing : String) (p : Path) (e : DiskError) : Error :=
  .run (.store p ("Failed to " ++ doing ++ ": " ++ e.message))

namespace Disk

/-- Makes a change that may be refused. -/
def attempt (doing : String) (p : Path) (run : Disk → Except DiskError Disk) :
    StateM Disk (Except Error Unit) := do
  match run (← get) with
  | .ok d => set d; return .ok ()
  | .error e => return .error (e.toError doing p)

/-- The store that keeps everything on a disk. -/
def store : Store (StateM Disk) where
  createDirectory p := attempt "create directory" p fun d => d.makeDirectories p
  writeFile p content := attempt "write file" p fun d => d.writeBytes p content.toUTF8
  has p := return (← get).has p
  removeDirectory p := do
    let (d, result) := (← get).removeDirectory p
    set d
    return result.mapError fun e => e.toError "remove directory" p

/-- The files below a directory, in the order of their paths. -/
def filesBelow (d : Disk) (place : Place) : List StoredFile :=
  (d.below place).filterMap fun
    | (found, .file bytes) => some ⟨(RawPath.ofNames (found.drop place.length)).bytes, bytes⟩
    | _ => none

/-- What is found of the files below a directory; `none` if there is no such directory. -/
def found? (d : Disk) (p : RawPath) : Option (List FoundFile) :=
  match d.lookUp p with
  | .ok (place, .directory) => some ((d.filesBelow place).map StoredFile.found)
  | _ => none

/-- The base code that a directory holds. -/
def baseCode (d : Disk) (root : RawPath) : Except Error BaseCode :=
  BaseCode.ofDirectory ⟨root.shown⟩ (d.found? root)

end Disk

end Scaffold
