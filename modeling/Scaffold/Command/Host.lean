import Scaffold.BaseCode.Directory
import Scaffold.Settings.Environment
import Scaffold.Store.Basic

/-!
# The host of a run

What a run needs of the system that it runs on, given as operations and as facts. Reasons for a
refusal are in the words of the system.
-/

namespace Scaffold.Command

/-- What can be done on a system. -/
structure Host (m : Type → Type) where
  /-- The place that applications are written to. -/
  store : Store m
  /-- The directory that one stands in. -/
  here : m Path
  isFile : Path → m Bool
  readBytes : Path → m (Except String ByteArray)
  /-- The text of a file; bytes that are no text are refused. -/
  readText : Path → m (Except String String)
  /-- Makes a directory and those it lies in. -/
  makeDirectories : Path → m (Except String Unit)
  writeFile : Path → String → m (Except String Unit)
  /-- The files below a directory; `none` if there is no such directory. -/
  found? : Path → m (Option (List FoundFile))
  /-- Writes to the stream for results. -/
  print : String → m (Except String Unit)
  /-- Writes to the stream for errors. -/
  complain : String → m Unit

/-- What a run finds around it. -/
structure Surroundings where
  environment : Environment := []
  /-- The home directory of the account. -/
  accountHome : Path := ⟨"/root"⟩
  /-- Whether the stream for results is a terminal. -/
  showsResults : Bool := false
  /-- Whether the stream for errors is a terminal. -/
  showsErrors : Bool := false

end Scaffold.Command
