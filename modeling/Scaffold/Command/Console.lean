import Scaffold.Command.Host
import Scaffold.Command.Invocation
import Scaffold.Command.Paint
import Scaffold.Settings.Basic
import Scaffold.Text.Case

/-!
# Showing results

How a run shows its results: which format, whether in colour, and what is left unsaid. Every line is
written at once, and a line that cannot be written ends the run.
-/

namespace Scaffold.Command

/-- The format that a word of the settings stands for, whatever the case of its letters. -/
def Format.ofSetting (word : String) : Format :=
  ((formatWords.find? fun w =>
    Text.foldCase w.toList == Text.foldCase word.toList).bind Format.ofWord?).getD .auto

/-- How results are shown. -/
structure Console where
  /-- A format other than `auto`. -/
  format : Format
  quiet : Bool
  coloured : Bool
  deriving DecidableEq, Repr

namespace Console

/-- How results are shown in a run: the switches come before the settings, and without either the
format is the one for people if there is a terminal. Only that has colours. -/
def choose (common : Common) (settings : Settings) (terminal : Bool) : Console :=
  let asked := if common.format = .auto then .ofSetting settings.format else common.format
  let format := if asked = .auto then (if terminal then .human else .plain) else asked
  { format
    quiet := common.quiet
    coloured := format = .human && !common.noColor && !settings.noColor }

/-- Whether nothing is said but results for other programs. -/
def isSilent (c : Console) : Bool := c.quiet || c.format = .json

/-- A message behind its sign. -/
def signed (c : Console) (sign : Sign) (message : String) : String := sign.line c.coloured message

/-- A line that stands over others. -/
def header (c : Console) (text : String) : String :=
  if c.coloured then bold (Colour.cyan.paint text) else text

/-- A line that belongs to one before it. -/
def detail (c : Console) (text : String) : String :=
  "  " ++ if c.coloured then dimmed text else text

end Console

/-- A run in progress: where it takes place, what holds in it, and how results are shown. -/
structure Session (m : Type → Type) where
  host : Host m
  console : Console
  settings : Settings
  /-- The file that settings are kept in. -/
  location : Path

namespace Session

variable {m : Type → Type} [Monad m]

/-- Writes a line of results. -/
def writeLine (s : Session m) (line : String) : ExceptT Failure m Unit := do
  match ← s.host.print (line ++ "\n") with
  | .ok () => pure ()
  | .error reason => throw (.stream reason)

/-- Shows a line unless the run is silent. -/
def tell (s : Session m) (line : String) : ExceptT Failure m Unit :=
  if s.console.isSilent then pure () else s.writeLine line

/-- Shows a message behind its sign. Errors are never left unsaid, and go to the stream for
errors. -/
def say (s : Session m) (sign : Sign) (message : String) : ExceptT Failure m Unit :=
  let line := s.console.signed sign message
  if sign = .error then s.host.complain (line ++ "\n") else s.tell line

/-- Shows a result for other programs, if results are asked for in that form. -/
def document (s : Session m) (v : Json.Value) : ExceptT Failure m Unit :=
  if s.console.format = .json then s.writeLine v.pretty else pure ()

end Session

end Scaffold.Command
