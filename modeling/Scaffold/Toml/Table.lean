import Scaffold.Toml.Scalar

/-!
# Tables in the making

The tables of a document are put together from lines that may come in many orders. How a table first
came up decides what may still be added to it: a header opens a table once, a dotted key may go on
with the tables that dotted keys have made, and what stands as a value is closed.
-/

namespace Scaffold.Toml

/-- How a table first came up. -/
inductive Origin where
  /-- By its own header. -/
  | header
  /-- As a table on the way to that of a header. -/
  | onTheWay
  /-- By a dotted key. -/
  | dotted
  deriving DecidableEq, Repr

/-- What stands under a key of a table in the making. -/
inductive Entry where
  | value (v : Value)
  | table (origin : Origin) (members : List (String × Entry))
  /-- Tables under one repeated header, the last first. -/
  | tables (items : List (List (String × Entry)))

/-- The members of a table in the making. -/
abbrev Members := List (String × Entry)

namespace Members

/-- Puts in the place of what stands under a key what `f` makes of it; a new key comes last. -/
def update (key : String) (f : Option Entry → Option Entry) : Members → Option Members
  | [] => (f none).map fun e => [(key, e)]
  | (k, e) :: rest =>
    if k = key then (f (some e)).map fun e => (k, e) :: rest
    else (update key f rest).map ((k, e) :: ·)

/-- Puts a value under a dotted key. `own` tells that the table is the one the key is given in, or
was made by a dotted key itself: only there the last part of the key may be put. -/
def assign (v : Value) : (own : Bool) → List String → Members → Option Members
  | _, [], _ => none
  | own, [key], m =>
    if own then m.update key fun
      | none => some (.value v)
      | some _ => none
    else none
  | _, key :: rest, m => m.update key fun
    | none => (assign v true rest []).map (.table .dotted)
    | some (.table .header _) => none
    | some (.table origin inner) =>
      (assign v (origin = .dotted) rest inner).map (.table origin)
    | some (.tables (last :: earlier)) =>
      (assign v false rest last).map fun last => .tables (last :: earlier)
    | some _ => none

/-- Opens the table of a header, which is one of several if the header is `repeated`, and
fills it. -/
def enter (repeated : Bool) (fill : Members → Option Members) :
    List String → Members → Option Members
  | [], _ => none
  | [key], m => m.update key fun e => match e, repeated with
    | none, false => (fill []).map (.table .header)
    | none, true => (fill []).map fun last => .tables [last]
    | some (.table .onTheWay inner), false => (fill inner).map (.table .header)
    | some (.tables items), true => (fill []).map fun last => .tables (last :: items)
    | _, _ => none
  | key :: rest, m => m.update key fun
    | none => (enter repeated fill rest []).map (.table .onTheWay)
    | some (.table origin inner) => (enter repeated fill rest inner).map (.table origin)
    | some (.tables (last :: earlier)) =>
      (enter repeated fill rest last).map fun last => .tables (last :: earlier)
    | some _ => none

/-- Puts the values of a list under their dotted keys, one after the other. -/
def assignAll (assignments : List (List String × Value)) (m : Members) : Option Members :=
  assignments.foldlM (fun m a => m.assign a.2 true a.1) m

end Members

mutual

/-- The value that an entry stands for once the document is at its end. -/
def Entry.done : Entry → Value
  | .value v => v
  | .table _ members => .table (doneMembers members)
  | .tables items => .array (doneTables items [])

def doneMembers : List (String × Entry) → List (String × Value)
  | [] => []
  | (key, e) :: rest => (key, e.done) :: doneMembers rest

/-- The tables of a list in reverse, before those that are done. -/
def doneTables : List (List (String × Entry)) → List Value → List Value
  | [], done => done
  | members :: rest, done => doneTables rest (.table (doneMembers members) :: done)

end

end Scaffold.Toml
