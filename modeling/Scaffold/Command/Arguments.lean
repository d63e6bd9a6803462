import Scaffold.Command.Grammar

/-!
# Reading arguments

The arguments of a run are read from left to right, level by level: what stands behind the name of a
command belongs to that command. A request for help or for the version ends the reading, and so does
the first thing that is wrong.
-/

namespace Scaffold.Command

/-- What ends the reading of arguments. The commands are those entered so far, the last one
first. -/
inductive Stop where
  | help (specs : List Spec)
  | version
  | misuse (detail : String) (specs : List Spec)

/-- What was read on one level. -/
structure Level where
  /-- The command, and those it was entered from, the last one first. -/
  specs : List Spec
  /-- The switches that were given, with their values, the last one first. -/
  given : List (Switch × String) := []
  /-- The words that were given, the last one first. -/
  words : List String := []
  /-- A switch whose value is to come. -/
  awaiting? : Option Switch := none
  /-- A switch with a value that has not been looked at. -/
  unseen? : Option (Switch × String) := none
  /-- Whether only words may follow. -/
  onlyWords : Bool := false

namespace Level

/-- The switches of a level. -/
def switches (l : Level) : List Switch :=
  (l.specs.head?.map Spec.switches).getD [] ++ commonSwitches

/-- The words that a level asks for. -/
def operands (l : Level) : List Takes := (l.specs.head?.map Spec.operands).getD []

/-- Stops because something is wrong. -/
def misuse {α : Type} (l : Level) (detail : String) : Except Stop α :=
  .error (.misuse detail l.specs)

/-- Whether a switch was given. -/
def has (l : Level) (long : String) : Bool := l.given.any (·.1.long == long)

/-- The last value that was given for a switch. -/
def value? (l : Level) (long : String) : Option String :=
  (l.given.find? (·.1.long == long)).map (·.2)

/-- Takes a switch with its value, which is empty if it has none. -/
def take (l : Level) (s : Switch) (value : String) : Except Stop Level :=
  if s = helpSwitch then .error (.help l.specs)
  else if s = versionSwitch then .error .version
  else if l.has s.long && s.takes != .count then
    l.misuse ("the argument '--" ++ s.long ++ "' cannot be used multiple times")
  else if s.takes.allows value then .ok { l with given := (s, value) :: l.given }
  else l.misuse ("invalid value '" ++ value ++ "' for '--" ++ s.long ++ "'")

/-- Looks at what has not been looked at before the next argument is taken. -/
def settle (l : Level) : Except Stop Level :=
  match l.awaiting?, l.unseen? with
  | some s, _ => l.misuse ("a value is required for '--" ++ s.long ++ "' but none was supplied")
  | none, some (s, value) => { l with unseen? := none }.take s value
  | none, none => .ok l

/-- Takes a word. -/
def takeWord (l : Level) (word : String) : Except Stop Level := do
  let l ← l.settle
  match l.operands[l.words.length]? with
  | none => l.misuse ("unexpected argument '" ++ word ++ "' found")
  | some operand =>
    if operand.allows word then return { l with words := word :: l.words }
    else l.misuse ("invalid value '" ++ word ++ "'")

/-- Takes a switch of the long form `--name` or `--name=value`. -/
def takeLong (l : Level) (text : String) : Except Stop Level := do
  let cs := text.toList
  let name := String.ofList (cs.takeWhile (· ≠ '='))
  let value? := match cs.dropWhile (· ≠ '=') with
    | [] => none
    | _ :: value => some (String.ofList value)
  let l ← l.settle
  match l.switches.find? (·.long == name), value? with
  | none, _ => l.misuse ("unexpected argument '--" ++ name ++ "' found")
  | some s, none =>
    if s.takes.hasValue then return { l with awaiting? := some s } else l.take s ""
  | some s, some value =>
    if s.takes.hasValue then l.take s value
    else l.misuse ("unexpected value '" ++ value ++ "' for '--" ++ name ++ "' found")

/-- Takes switches by their letters, as in `-vq`. What follows the letter of a switch with a value
is that value, and an equals sign may stand before it. -/
def takeLetters (l : Level) : List Char → Except Stop Level
  | [] => .ok l
  | c :: rest => do
    let l ← l.settle
    match l.switches.find? (·.short? == some c) with
    | none => l.misuse ("unexpected argument '-" ++ String.ofList [c] ++ "' found")
    | some s =>
      if s.takes.hasValue then
        match rest with
        | [] => return { l with awaiting? := some s }
        | '=' :: value => l.take s (String.ofList value)
        | value => l.take s (String.ofList value)
      else (← l.take s "").takeLetters rest

/-- Takes an argument that is no name of a command. -/
def takeArgument (l : Level) (argument : String) : Except Stop Level :=
  if l.onlyWords then l.takeWord argument
  else match argument.toList with
    | ['-', '-'] => .ok { l with onlyWords := true }
    | '-' :: '-' :: name => l.takeLong (String.ofList name)
    | '-' :: c :: letters => l.takeLetters (c :: letters)
    | _ =>
      match l.awaiting? with
      | some s => .ok { l with awaiting? := none, unseen? := some (s, argument) }
      | none => l.takeWord argument

/-- Looks at a level as a whole when all arguments have been taken. `noColor?` is what the
environment says about colours, which counts as given where the switch is not. -/
def finish (l : Level) (noColor? : Option String) : Except Stop Level := do
  let l ← l.settle
  if let some text := noColor? then
    if !l.has "no-color" && !(["true", "false"].contains text) then
      l.misuse ("invalid value '" ++ text ++ "' for '--no-color'")
  if l.words.length < l.operands.length then
    l.misuse "the required arguments were not provided"
  if l.has "quiet" && l.has "verbose" then
    l.misuse "the argument '--quiet' cannot be used with '--verbose'"
  return l

end Level

/-- Reads the commands that a request for help names. -/
def helpFor (specs : List Spec) : List String → Stop
  | [] => .help specs
  | name :: rest =>
    match specs.head?.bind (·.command? name), rest with
    | some s, rest => helpFor (s :: specs) rest
    | none, [] =>
      if name == "help" && specs.head?.any (!·.commands.isEmpty) then .help specs
      else .misuse ("unrecognized subcommand '" ++ name ++ "'") specs
    | none, _ => .misuse ("unrecognized subcommand '" ++ name ++ "'") specs

/-- Whether a level has commands, one of which has to be named. -/
def Level.needsCommand (l : Level) : Bool := l.specs.head?.any (!·.commands.isEmpty)

/-- Reads arguments on a level and on those that its commands open. Gives the levels, the first one
first. What is wrong with the last value before the name of a command is told only when that command
was read. -/
def readLevels (noColor? : Option String) (l : Level) : List String → Except Stop (List Level)
  | [] => do
    let l ← l.finish noColor?
    if l.needsCommand then l.misuse "a subcommand is required" else return [l]
  | argument :: rest =>
    if l.onlyWords || l.awaiting?.isSome then do readLevels noColor? (← l.takeArgument argument) rest
    else match l.specs.head?.bind (·.command? argument) with
      | some s => do
        let levels ← readLevels noColor? { specs := s :: l.specs } rest
        return (← l.finish noColor?) :: levels
      | none =>
        if l.needsCommand && argument == "help" then .error (helpFor l.specs rest)
        else do readLevels noColor? (← l.takeArgument argument) rest

/-- Reads the arguments of a run. -/
def readArguments (noColor? : Option String) (arguments : List String) :
    Except Stop (List Level) :=
  readLevels noColor? { specs := [rootSpec] } arguments

end Scaffold.Command
