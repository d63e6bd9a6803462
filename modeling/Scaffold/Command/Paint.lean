import Scaffold.Command.Failure

/-!
# Painted text

Text with the codes by which a terminal shows it in colour, bold or dimmed, and the text of a
failure as it is shown with them or without.
-/

namespace Scaffold.Command

/-- The colours in use. -/
inductive Colour where
  | red
  | green
  | yellow
  | blue
  | cyan
  deriving DecidableEq, Repr

/-- The number of a colour. -/
def Colour.code : Colour → Nat
  | red => 31
  | green => 32
  | yellow => 33
  | blue => 34
  | cyan => 36

/-- A text between two codes for a terminal. -/
def between (on off : Nat) (text : String) : String :=
  "\x1b[" ++ toString on ++ "m" ++ text ++ "\x1b[" ++ toString off ++ "m"

/-- A text in a colour. -/
def Colour.paint (c : Colour) (text : String) : String := between c.code 39 text

/-- A bold text. -/
def bold (text : String) : String := between 1 0 text

/-- A dimmed text. -/
def dimmed (text : String) : String := between 2 0 text

/-- The signs that stand before messages. -/
inductive Sign where
  | success
  | warning
  | info
  | error
  deriving DecidableEq, Repr

namespace Sign

/-- A sign as it is shown. -/
def text : Sign → String
  | success => "✓"
  | warning => "⚠"
  | info => "ℹ"
  | error => "✗"

/-- The colour of a sign and its message. -/
def colour : Sign → Colour
  | success => .green
  | warning => .yellow
  | info => .blue
  | error => .red

/-- A message behind its sign. -/
def line (s : Sign) (coloured : Bool) (message : String) : String :=
  if coloured then bold (s.colour.paint s.text) ++ " " ++ s.colour.paint message
  else s.text ++ " " ++ message

end Sign

namespace Failure

/-- Lines below each other, each behind two spaces. -/
def indented (lines : List String) : String :=
  String.join (lines.map fun line => "  " ++ line ++ "\n")

/-- Where one is told how to learn more. -/
def hint : String := "Use -v / --verbose for more details."

/-- The text of a failure. It names the causes if it is to be `verbose`, else how to learn
of them. -/
def plainText (f : Failure) (settings : Path) (verbose : Bool) : String :=
  "\nError: " ++ f.message ++ "\n" ++
  (if verbose then indented (f.causes.map ("Caused by: " ++ ·)) else "") ++
  (match f.suggestions settings with
    | [] => ""
    | suggestions => "\nSuggestions:\n" ++ indented suggestions) ++
  (if verbose then "" else "\n" ++ hint ++ "\n")

/-- The text of a failure for a terminal. -/
def paintedText (f : Failure) (settings : Path) (verbose : Bool) : String :=
  let title (c : Colour) (text : String) : String := bold (c.paint text)
  "\n" ++ title .red Sign.error.text ++ " " ++ title .red "Error:" ++ "\n\n" ++
  indented [Colour.red.paint f.message] ++
  (if verbose then
    String.join (f.causes.map fun cause => "\n" ++ indented [dimmed "→" ++ " " ++ dimmed cause])
  else "") ++
  (match f.suggestions settings with
    | [] => ""
    | suggestions => "\n" ++ title .yellow "Suggestions:" ++ "\n" ++ indented suggestions) ++
  (if verbose then ""
  else "\n" ++ Colour.blue.paint Sign.info.text ++ " " ++ dimmed hint ++ "\n")

end Failure

end Scaffold.Command
