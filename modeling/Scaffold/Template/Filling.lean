import Scaffold.Template.Vocabulary

/-!
# Fillings

The values for the slots of a base file. A slot without a value is different from one with an empty
value.
-/

namespace Scaffold

/-- Values for some of the slots. -/
structure Filling where
  value? : Slot → Option String

namespace Filling

/-- No slot has a value. -/
def empty : Filling := ⟨fun _ => none⟩

/-- The slot has the given value, whatever it had before. -/
def set (filling : Filling) (slot : Slot) (value : String) : Filling :=
  ⟨fun s => if s = slot then some value else filling.value? s⟩

/-- The slot has the fragment behind what it had before. -/
def append (filling : Filling) (slot : Slot) (fragment : String) : Filling :=
  filling.set slot ((filling.value? slot).getD "" ++ fragment)

/-- The slot has a value, the empty one unless it had one before. -/
def declare (filling : Filling) (slot : Slot) : Filling :=
  filling.set slot ((filling.value? slot).getD "")

/-- The filling that gives each of the listed slots its value. -/
def ofList (values : List (Slot × String)) : Filling :=
  values.foldl (fun filling v => filling.set v.1 v.2) empty

end Filling

end Scaffold
