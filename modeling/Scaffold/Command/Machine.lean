import Scaffold.Command.Run
import Scaffold.Disk.Store

/-!
# Runs on a machine of its own

A machine is a disk with two streams that keep what is written to them. A run on a machine is a
function: it needs no system.
-/

namespace Scaffold.Command

/-- A disk and the streams of a run. -/
structure Machine where
  disk : Disk
  results : String := ""
  complaints : String := ""
  /-- Whether the stream for results takes nothing more. -/
  isFull : Bool := false

namespace Machine

/-- Carries out an operation of the disk. -/
def onDisk {α : Type} (operation : StateM Disk α) : StateM Machine α := fun machine =>
  let (a, disk) := operation machine.disk
  (a, { machine with disk })

/-- Looks something up on the disk that may be refused. -/
def ask {α : Type} (question : Disk → Except DiskError α) : StateM Machine (Except String α) := do
  return (question (← get).disk).mapError DiskError.message

/-- Changes the disk, which may be refused. -/
def change (step : Disk → Except DiskError Disk) : StateM Machine (Except String Unit) := do
  match step (← get).disk with
  | .ok disk =>
    modify fun machine => { machine with disk }
    return .ok ()
  | .error e => return .error e.message

/-- Why a full stream takes nothing more. -/
def fullReason : String := "No space left on device (os error 28)"

/-- What can be done on a machine. -/
def host : Host (StateM Machine) where
  store := Disk.store.lifted onDisk
  here := return (← get).disk.here.path
  isFile p := return (← get).disk.isFile p
  readBytes p := ask (·.readBytes p)
  readText p := ask (·.readText p)
  makeDirectories p := change (·.makeDirectories p)
  writeFile p text := change (·.writeBytes p text.toUTF8)
  found? p := return (← get).disk.found? p
  print text := do
    if (← get).isFull then return .error fullReason
    modify fun machine => { machine with results := machine.results ++ text }
    return .ok ()
  complain text := modify fun machine => { machine with complaints := machine.complaints ++ text }

/-- Carries out a run. Gives its exit code and the machine as it is then. -/
def run (machine : Machine) (around : Surroundings) (arguments : List String) : Nat × Machine :=
  (host.run around arguments).run machine

end Machine

end Scaffold.Command
