import Scaffold.Command.Run

/-!
# The program

The command line on the system that it runs on. Everything that is decided is decided by
`Command.Host.run`; here its operations are carried out.
-/

namespace Scaffold.Command

/-- The words of the system for an error, with its number. -/
def systemReason : IO.Error → String
  | .alreadyExists _ code details | .noFileOrDirectory _ code details
  | .invalidArgument _ code details | .permissionDenied _ code details
  | .resourceExhausted _ code details | .inappropriateType _ code details
  | .noSuchThing _ code details | .interrupted _ code details
  | .otherError code details | .resourceBusy code details | .resourceVanished code details
  | .unsupportedOperation code details | .hardwareFault code details
  | .unsatisfiedConstraints code details | .illegalOperation code details
  | .protocolError code details | .timeExpired code details =>
    details ++ " (os error " ++ toString code ++ ")"
  | e => toString e

/-- Tries an operation of the system. -/
def attempt {α : Type} (operation : IO α) : IO (Except String α) :=
  return (← operation.toBaseIO).mapError systemReason

/-- Tries a change of the system on behalf of a store. -/
def attemptChange (doing : String) (p : Path) (operation : IO Unit) :
    IO (Except Error Unit) :=
  return (← attempt operation).mapError fun reason =>
    .run (.store p ("Failed to " ++ doing ++ ": " ++ reason))

/-- Whether there is anything at a path. -/
def isThere (p : Path) : IO Bool := return (← (IO.FS.realPath ⟨p.text⟩).toBaseIO).isOk

/-- Whether the node at a path is of a kind. -/
def isOfType (kind : IO.FS.FileType) (p : Path) : IO Bool := do
  try return (← (← IO.FS.realPath ⟨p.text⟩).metadata).type == kind
  catch _ => return false

/-- Makes the first of some directories, each of which lies in the next one, and those of the others
that are missing. -/
def makeUpward : List Path → IO Unit
  | [] => return
  | p :: upward => do
    if p.text.isEmpty then return
    try IO.FS.createDir ⟨p.text⟩
    catch
      | .noFileOrDirectory .. =>
        makeUpward upward
        IO.FS.createDir ⟨p.text⟩
      | e => unless ← isOfType .dir p do throw e

/-- The files below a directory in the order of their paths; `none` if there is no such
directory. -/
def filesBelow? (p : Path) : IO (Option (List FoundFile)) := do
  try
    let root ← IO.FS.realPath ⟨p.text⟩
    if !(← root.isDir) then return none
    let mut files : List (Path × FoundFile) := []
    for found in ← root.walkDir do
      if (← found.metadata).type == .file then
        let name := String.ofList (found.toString.toList.drop (root.toString.length + 1))
        let text? := String.fromUTF8? (← IO.FS.readBinFile found)
        files := (⟨name⟩, ⟨name, text?⟩) :: files
    return some ((files.mergeSort fun a b => a.1.order b.1 != .gt).map (·.2))
  catch _ => return none

/-- What can be done on the system. -/
def systemHost : Host IO where
  store := {
    createDirectory := fun p =>
      attemptChange "create directory" p (makeUpward p.ancestors)
    writeFile := fun p content =>
      attemptChange "write file" p (IO.FS.writeFile ⟨p.text⟩ content)
    has := isThere
    removeDirectory := fun p =>
      attemptChange "remove directory" p (IO.FS.removeDirAll ⟨p.text⟩) }
  here := return ⟨(← IO.currentDir).toString⟩
  isFile := isOfType .file
  readBytes p := attempt (IO.FS.readBinFile ⟨p.text⟩)
  readText p := do
    match ← attempt (IO.FS.readBinFile ⟨p.text⟩) with
    | .error reason => return .error reason
    | .ok bytes =>
      match String.fromUTF8? bytes with
      | some text => return .ok text
      | none => return .error "stream did not contain valid UTF-8"
  makeDirectories p := attempt (makeUpward p.ancestors)
  writeFile p text := attempt (IO.FS.writeFile ⟨p.text⟩ text)
  found? := filesBelow?
  print text := attempt do
    let stream ← IO.getStdout
    stream.putStr text
    stream.flush
  complain text := do (← IO.getStderr).putStr text

/-- The variables of the environment, as the system keeps them for a running program. -/
def systemEnvironment : IO Environment := do
  match ← attempt (IO.FS.readBinFile ⟨"/proc/self/environ"⟩) with
  | .error _ => return []
  | .ok bytes =>
    let entries := ((String.fromUTF8? bytes).getD "").splitOn "\x00"
    return entries.filterMap fun entry =>
      match entry.splitOn "=" with
      | name :: first :: rest => some (name, "=".intercalate (first :: rest))
      | _ => none

end Scaffold.Command

/-- Carries out a run on the system. -/
def main (arguments : List String) : IO UInt32 := do
  let around : Scaffold.Command.Surroundings := {
    environment := ← Scaffold.Command.systemEnvironment
    showsResults := ← (← IO.getStdout).isTty
    showsErrors := ← (← IO.getStderr).isTty }
  return (← Scaffold.Command.systemHost.run around arguments).toUInt32
