import Scaffold.Json.Skip

/-!
# Lists and records

A record is written as an object, in any order of its members, or as an array of their values in the
order of declaration. Members that nobody declared are skipped.
-/

namespace Scaffold.Json

/-- Whether a further item follows in an array; the cursor then stands before it. -/
def moreItems (first : Bool) (c : Cursor) : Except Failure (Bool × Cursor) :=
  let c := c.skipSpace
  match c.peek? with
  | none => fail .endInArray c.peeked
  | some ch =>
    if ch = ']' then .ok (false, c)
    else if first then .ok (true, c)
    else if ch = ',' then
      let c := c.next.skipSpace
      match c.peek? with
      | some ']' => fail .commaAtEnd c.peeked
      | some _ => .ok (true, c)
      | none => fail .endInValue c.peeked
    else fail .noCommaInArray c.peeked

/-- Whether a further member follows in an object; the cursor then stands before its key. -/
def moreMembers (first : Bool) (c : Cursor) : Except Failure (Bool × Cursor) :=
  let c := c.skipSpace
  match c.peek? with
  | none => fail .endInObject c.peeked
  | some ch =>
    if ch = '\x7d' then .ok (false, c)
    else if first then if ch = '"' then .ok (true, c) else fail .noKey c.peeked
    else if ch = ',' then
      let c := c.next.skipSpace
      match c.peek? with
      | some '"' => .ok (true, c)
      | some '\x7d' => fail .commaAtEnd c.peeked
      | some _ => fail .noKey c.peeked
      | none => fail .endInValue c.peeked
    else fail .noCommaInObject c.peeked

/-- The cursor behind the end of an array. -/
def endArray (c : Cursor) : Except Failure Cursor :=
  let c := c.skipSpace
  match c.peek? with
  | some ']' => .ok c.next
  | some ',' =>
    let c := c.next.skipSpace
    if c.peek? = some ']' then fail .commaAtEnd c.peeked else fail .trailing c.peeked
  | some _ => fail .trailing c.peeked
  | none => fail .endInArray c.peeked

/-- The cursor behind the end of an object. -/
def endObject (c : Cursor) : Except Failure Cursor :=
  let c := c.skipSpace
  match c.peek? with
  | some '\x7d' => .ok c.next
  | some ',' => fail .commaAtEnd c.peeked
  | some _ => fail .trailing c.peeked
  | none => fail .endInObject c.peeked

/-- Where a key that is given twice is reported, where `c` stands behind the key: behind the end of
the object if it follows, else before what follows. -/
def repeatReport (c : Cursor) : Position :=
  let c := c.skipSpace
  if c.peek? = some '\x7d' then c.next.position else c.position

/-- The items of an array up to its end. Every item takes a character, so that their number is
`fuel` enough. -/
def readItems {α : Type} (read : Reader α) : (fuel : Nat) → (first : Bool) → Reader (List α)
  | 0, _, c => fail .endInArray c.position
  | fuel + 1, first, c => do
    match ← moreItems first c with
    | (false, c) => return ([], c)
    | (true, c) =>
      let (a, c) ← read c
      let (rest, c) ← readItems read fuel false c
      return (a :: rest, c)

/-- Reads a list. -/
def list {α : Type} (read : Reader α) : Reader (List α) := fun c => do
  let c ← toValue c
  if c.peek? = some '[' then
    let (items, c) ← readItems read (c.rest.length + 1) true c.next
    return (items, ← endArray c)
  else failExpecting "a sequence" c

/-- A member of a record. -/
structure Member (α : Type) where
  key : String
  /-- Whether the record cannot go without it. -/
  required : Bool
  /-- Reads the value and puts it into the record. -/
  read : Reader (α → α)

/-- How a record is read. -/
structure RecordForm (α : Type) where
  /-- How a report calls the record. -/
  name : String
  members : List (Member α)
  /-- The record that has only its defaults. -/
  start : α

namespace RecordForm

variable {α : Type}

/-- How a report calls the record as an array. -/
def nameWithCount (form : RecordForm α) : String :=
  form.name ++ " with " ++ toString form.members.length ++
    (if form.members.length = 1 then " element" else " elements")

/-- The members of an object up to its end; `seen` are the keys already read. Every member takes a
character, so that their number is `fuel` enough. -/
def readMembers (form : RecordForm α) :
    (fuel : Nat) → (first : Bool) → (seen : List String) → α → Reader α
  | 0, _, _, _, c => fail .endInObject c.position
  | fuel + 1, first, seen, a, c => do
    match ← moreMembers first c with
    | (false, c) =>
      match form.members.find? fun m => m.required && !seen.contains m.key with
      | some m => fail (.missingMember m.key) c.next.position
      | none => return (a, c)
    | (true, c) =>
      let (key, c) ← stringAt c.next
      match form.members.find? fun m => m.key == key with
      | none =>
        let c ← skipValue (← skipColon c)
        form.readMembers fuel false seen a c
      | some m =>
        if seen.contains key then fail (.repeatedMember key) (repeatReport c)
        else
          let (put, c) ← m.read (← skipColon c)
          form.readMembers fuel false (key :: seen) (put a) c

/-- The values of the members that are left, from the items of an array; `count` items came
before. -/
def readValues (form : RecordForm α) (count : Nat) : List (Member α) → α → Reader α
  | [], a, c => return (a, c)
  | m :: rest, a, c => do
    match ← moreItems (count == 0) c with
    | (true, c) =>
      let (put, c) ← m.read c
      form.readValues (count + 1) rest (put a) c
    | (false, c) =>
      match (m :: rest).findIdx? fun m => m.required with
      | some i => fail (.tooFewItems (count + i) form.nameWithCount) c.next.position
      | none => return (a, c)

/-- Reads a record. -/
def read (form : RecordForm α) : Reader α := fun c => do
  let c ← toValue c
  match c.peek? with
  | some '[' =>
    let (a, c) ← form.readValues 0 form.members form.start c.next
    return (a, ← endArray c)
  | some '\x7b' =>
    let (a, c) ← form.readMembers (c.rest.length + 1) true [] form.start c.next
    return (a, ← endObject c)
  | _ => failExpecting form.name c

end RecordForm

/-- Reads the name of a variant, which may also stand as the only key of an object with no value. -/
def variant : Reader String := fun c => do
  let c := c.skipSpace
  match c.peek? with
  | some '"' => stringAt c.next
  | some '\x7b' =>
    let (name, c) ← stringFor "variant identifier" c.next
    let ((), c) ← unit (← skipColon c)
    let c := c.skipSpace
    match c.peek? with
    | some '\x7d' => return (name, c.next)
    | some _ => fail .noValue c.position
    | none => fail .endInObject c.position
  | some _ => fail .noValue c.peeked
  | none => fail .endInValue c.peeked

/-- The value that a whole text stands for. -/
def parse {α : Type} (read : Reader α) (text : String) : Except Failure α := do
  let (a, c) ← read (Cursor.start text.toList)
  let c := c.skipSpace
  if c.rest.isEmpty then return a else fail .trailing c.peeked

end Scaffold.Json
