import Scaffold.Proofs.Json.Reading

/-!
# Written lists and records are read

A list is read from its items (`reads_list`). A record is read from an object whose members are
known, not repeated, and as many as the record needs: the members then build it one after the
other (`RecordForm.Builds`, `RecordForm.Builds.reads`).
-/

namespace Scaffold.Json

/-! ### Texts between brackets -/

theorem intercalate_cons (text : List Char) (texts : List (List Char)) :
    [','].intercalate (text :: texts) = text ++ texts.flatMap (',' :: ·) := by
  induction texts generalizing text with
  | nil => simp
  | cons next texts ih =>
    rw [List.intercalate_cons_cons, ih, List.flatMap_cons, List.append_assoc]
    rfl

theorem length_le_length_intercalate (texts : List (List Char)) :
    texts.length ≤ ([','].intercalate texts).length + 1 := by
  cases texts with
  | nil => simp
  | cons text texts =>
    have hlength := length_le_length_flatMap (f := (',' :: ·)) (by simp) texts
    rw [intercalate_cons, List.length_append, List.length_cons]
    omega

theorem compactItems_eq_map (items : List Value) :
    Value.compactItems items = items.map Value.compact := by
  induction items with
  | nil => rw [Value.compactItems, List.map_nil]
  | cons v items ih => rw [Value.compactItems, ih, List.map_cons]

theorem compactMembers_eq_map (members : List (String × Value)) :
    Value.compactMembers members = members.map fun m => stringText m.1 ++ ":" ++ m.2.compact := by
  induction members with
  | nil => rw [Value.compactMembers, List.map_nil]
  | cons m members ih => rw [Value.compactMembers, ih, List.map_cons]

theorem toList_compact_array (items : List Value) : (Value.array items).compact.toList =
    '[' :: ([','].intercalate (items.map (·.compact.toList)) ++ [']']) := by
  simp [Value.compact, compactItems_eq_map, String.toList_intercalate, Function.comp_def]

/-- A member of an object: its key, a colon and its value. -/
def memberText (m : String × Value) : List Char :=
  '"' :: (m.1.toList.flatMap escapedChar ++ '"' :: ':' :: m.2.compact.toList)

theorem toList_compact_object (members : List (String × Value)) :
    (Value.object members).compact.toList =
      '\x7b' :: ([','].intercalate (members.map memberText) ++ ['\x7d']) := by
  have hmember (m : String × Value) :
      (stringText m.1 ++ ":" ++ m.2.compact).toList = memberText m := by
    simp [memberText, stringText]
  simp only [Value.compact, compactMembers_eq_map, String.toList_append, String.toList_intercalate,
    List.map_map, Function.comp_def, hmember]
  rfl

/-! ### Lists -/

theorem moreItems_end (first : Bool) (text : List Char) (p : Position) :
    moreItems first ⟨']' :: text, p⟩ = .ok (false, ⟨']' :: text, p⟩) := by
  rw [moreItems, skipSpace_cons (by decide)]
  rfl

section
variable {α : Type} {read : Reader α} {v : Value} {a : α}

theorem moreItems_first (h : Reads read v a) (text : List Char) (p : Position) :
    moreItems true ⟨v.compact.toList ++ text, p⟩ = .ok (true, ⟨v.compact.toList ++ text, p⟩) := by
  obtain ⟨c, hc, more, htext⟩ := h.opens
  obtain ⟨hspace, hend, -⟩ := of_mem_opening c hc
  rw [htext, List.cons_append, moreItems, skipSpace_cons hspace]
  simp only [Cursor.peek?, List.head?_cons, hend, if_false, if_true]

theorem moreItems_comma (h : Reads read v a) (text : List Char) (p : Position) :
    moreItems false ⟨',' :: (v.compact.toList ++ text), p⟩ =
      .ok (true, ⟨v.compact.toList ++ text, p.after ','⟩) := by
  obtain ⟨c, hc, more, htext⟩ := h.opens
  obtain ⟨hspace, hend, -⟩ := of_mem_opening c hc
  rw [htext, List.cons_append, moreItems, skipSpace_cons (by decide)]
  simp only [Cursor.peek?, List.head?_cons, Cursor.next, skipSpace_cons hspace]
  simp

theorem readItems_item (h : Reads read v a) {first : Bool} {c : Cursor} {text : List Char}
    {p : Position} (hmore : moreItems first c = .ok (true, ⟨v.compact.toList ++ text, p⟩))
    (fuel : Nat) : ∃ q, readItems read (fuel + 1) first c = do
      let (rest, d) ← readItems read fuel false ⟨text, q⟩
      return (a :: rest, d) := by
  obtain ⟨q, hread⟩ := h.onward text p
  refine ⟨q, ?_⟩
  rw [readItems, hmore, ok_bind]
  simp only [hread, ok_bind]

end

section
variable {α : Type} {read : Reader α} {write : α → Value} {as : List α}

theorem readItems_behind (h : ∀ a ∈ as, Reads read (write a) a) {fuel : Nat}
    (hfuel : as.length < fuel) (text : List Char) (p : Position) :
    ∃ q, readItems read fuel false
      ⟨(as.flatMap fun a => ',' :: (write a).compact.toList) ++ ']' :: text, p⟩ =
        .ok (as, ⟨']' :: text, q⟩) := by
  induction as generalizing fuel p with
  | nil =>
    obtain ⟨fuel, rfl⟩ := Nat.exists_eq_add_one_of_ne_zero (Nat.ne_zero_of_lt hfuel)
    refine ⟨p, ?_⟩
    rw [List.flatMap_nil, List.nil_append, readItems, moreItems_end]
    rfl
  | cons a as ih =>
    obtain ⟨fuel, rfl⟩ := Nat.exists_eq_add_one_of_ne_zero (Nat.ne_zero_of_lt hfuel)
    have ha := h a List.mem_cons_self
    rw [List.flatMap_cons, List.cons_append, List.cons_append, List.append_assoc]
    obtain ⟨q, hitem⟩ := readItems_item ha (moreItems_comma ha _ p) fuel
    obtain ⟨q', hrest⟩ :=
      ih (fun b hb => h b (List.mem_cons_of_mem a hb)) (Nat.lt_of_succ_lt_succ hfuel) q
    refine ⟨q', ?_⟩
    rw [hitem, hrest]
    rfl

theorem readItems_intercalate (h : ∀ a ∈ as, Reads read (write a) a) {fuel : Nat}
    (hfuel : as.length < fuel) (text : List Char) (p : Position) :
    ∃ q, readItems read fuel true
      ⟨[','].intercalate (as.map fun a => (write a).compact.toList) ++ ']' :: text, p⟩ =
        .ok (as, ⟨']' :: text, q⟩) := by
  obtain ⟨fuel, rfl⟩ := Nat.exists_eq_add_one_of_ne_zero (Nat.ne_zero_of_lt hfuel)
  cases as with
  | nil =>
    refine ⟨p, ?_⟩
    rw [List.map_nil, List.intercalate_nil, List.nil_append, readItems, moreItems_end]
    rfl
  | cons a as =>
    have ha := h a List.mem_cons_self
    rw [List.map_cons, intercalate_cons, List.flatMap_map, List.append_assoc]
    obtain ⟨q, hitem⟩ := readItems_item ha (moreItems_first ha _ p) fuel
    obtain ⟨q', hrest⟩ := readItems_behind (fun b hb => h b (List.mem_cons_of_mem a hb))
      (Nat.lt_of_succ_lt_succ hfuel) text q
    refine ⟨q', ?_⟩
    rw [hitem, hrest]
    rfl

/-- A list is read if its items are. -/
theorem reads_list (h : ∀ a ∈ as, Reads read (write a) a) :
    Reads (list read) (.array (as.map write)) as where
  opens := ⟨'[', by decide, _, toList_compact_array _⟩
  onward := by
    intro text p
    let texts := as.map fun a => (write a).compact.toList
    have htext : (Value.array (as.map write)).compact.toList ++ text =
        '[' :: ([','].intercalate texts ++ ']' :: text) := by
      rw [toList_compact_array, List.map_map, List.cons_append, List.append_assoc]
      rfl
    -- the fuel is the length of the text, which has a character for each item
    have hfuel : as.length < ('[' :: ([','].intercalate texts ++ ']' :: text)).length + 1 := by
      have hlength := length_le_length_intercalate texts
      rw [List.length_map] at hlength
      rw [List.length_cons, List.length_append, List.length_cons]
      omega
    obtain ⟨q, hitems⟩ := readItems_intercalate h hfuel text (p.after '[')
    refine ⟨q.after ']', ?_⟩
    rw [htext, list, toValue_cons (by decide), ok_bind]
    simp only [Cursor.peek?, List.head?_cons, if_true, Cursor.next]
    rw [hitems, ok_bind, endArray, skipSpace_cons (by decide)]
    rfl

end

/-! ### Records -/

namespace RecordForm

variable {α : Type} (form : RecordForm α)

/-- Members that build a record on one that is begun: each is known and not among those `seen`, its
value is read, and none that is required is missing in the end. -/
inductive Builds : (seen : List String) → α → List (String × Value) → α → Prop where
  | done {seen a} : (∀ m ∈ form.members, m.required = true → m.key ∈ seen) → Builds seen a [] a
  | member {seen a key v m put members b} : form.members.find? (fun m => m.key == key) = some m →
    key ∉ seen → Reads m.read v put → Builds (key :: seen) (put a) members b →
    Builds seen a ((key, v) :: members) b

end RecordForm

theorem moreMembers_end (first : Bool) (text : List Char) (p : Position) :
    moreMembers first ⟨'\x7d' :: text, p⟩ = .ok (false, ⟨'\x7d' :: text, p⟩) := by
  rw [moreMembers, skipSpace_cons (by decide)]
  rfl

theorem moreMembers_first (text : List Char) (p : Position) :
    moreMembers true ⟨'"' :: text, p⟩ = .ok (true, ⟨'"' :: text, p⟩) := by
  rw [moreMembers, skipSpace_cons (by decide)]
  rfl

theorem moreMembers_comma (text : List Char) (p : Position) :
    moreMembers false ⟨',' :: '"' :: text, p⟩ = .ok (true, ⟨'"' :: text, p.after ','⟩) := by
  rw [moreMembers, skipSpace_cons (by decide)]
  have hquote : Cursor.isSpace '"' = false := by decide
  simp only [Cursor.peek?, List.head?_cons, Cursor.next, skipSpace_cons hquote]
  rfl

namespace RecordForm

variable {α : Type} {form : RecordForm α} {seen : List String} {a b : α}

theorem readMembers_end (hdone : ∀ m ∈ form.members, m.required = true → m.key ∈ seen) (fuel : Nat)
    (first : Bool) (text : List Char) (p : Position) :
    form.readMembers (fuel + 1) first seen a ⟨'\x7d' :: text, p⟩ = .ok (a, ⟨'\x7d' :: text, p⟩) := by
  have hnone : form.members.find? (fun m => m.required && !seen.contains m.key) = none := by
    refine List.find?_eq_none.2 fun m hm => ?_
    simpa using hdone m hm
  rw [readMembers, moreMembers_end, ok_bind]
  simp only [hnone]
  rfl

theorem readMembers_member {key : String} {v : Value} {m : Member α} {put : α → α}
    (hknown : form.members.find? (fun m => m.key == key) = some m) (hnew : key ∉ seen)
    (hread : Reads m.read v put) {first : Bool} {c : Cursor} {text : List Char} {p : Position}
    (hmore : moreMembers first c = .ok (true, ⟨memberText (key, v) ++ text, p⟩)) (fuel : Nat) :
    ∃ q, form.readMembers (fuel + 1) first seen a c =
      form.readMembers fuel false (key :: seen) (put a) ⟨text, q⟩ := by
  obtain ⟨q, hkey⟩ := stringAt_stringText key (':' :: (v.compact.toList ++ text)) (p.after '"')
  have hcolon : skipColon ⟨':' :: (v.compact.toList ++ text), q⟩ =
      .ok ⟨v.compact.toList ++ text, q.after ':'⟩ := by
    rw [skipColon, skipSpace_cons (by decide)]
    rfl
  obtain ⟨q', hvalue⟩ := hread.onward text (q.after ':')
  refine ⟨q', ?_⟩
  have htext : memberText (key, v) ++ text =
      '"' :: (key.toList.flatMap escapedChar ++ '"' :: ':' :: (v.compact.toList ++ text)) := by
    simp [memberText]
  rw [readMembers, hmore, ok_bind, htext]
  simp only [Cursor.next, hkey, ok_bind, hknown, hcolon, hvalue]
  rw [if_neg (by simpa using hnew)]

theorem Builds.readMembers_behind {members : List (String × Value)}
    (h : form.Builds seen a members b) {fuel : Nat} (hfuel : members.length < fuel)
    (text : List Char) (p : Position) :
    ∃ q, form.readMembers fuel false seen a
      ⟨(members.flatMap fun m => ',' :: memberText m) ++ '\x7d' :: text, p⟩ =
        .ok (b, ⟨'\x7d' :: text, q⟩) := by
  induction h generalizing fuel p with
  | done hdone =>
    obtain ⟨fuel, rfl⟩ := Nat.exists_eq_add_one_of_ne_zero (Nat.ne_zero_of_lt hfuel)
    exact ⟨p, readMembers_end hdone fuel false text p⟩
  | member hknown hnew hread _ ih =>
    obtain ⟨fuel, rfl⟩ := Nat.exists_eq_add_one_of_ne_zero (Nat.ne_zero_of_lt hfuel)
    rw [List.flatMap_cons, List.cons_append, List.cons_append, List.append_assoc]
    obtain ⟨q, hmember⟩ := readMembers_member hknown hnew hread (moreMembers_comma _ p) fuel
    obtain ⟨q', hrest⟩ := ih (Nat.lt_of_succ_lt_succ hfuel) q
    exact ⟨q', hmember.trans hrest⟩

theorem Builds.readMembers_intercalate {members : List (String × Value)}
    (h : form.Builds seen a members b) {fuel : Nat} (hfuel : members.length < fuel)
    (text : List Char) (p : Position) :
    ∃ q, form.readMembers fuel true seen a
      ⟨[','].intercalate (members.map memberText) ++ '\x7d' :: text, p⟩ =
        .ok (b, ⟨'\x7d' :: text, q⟩) := by
  obtain ⟨fuel, rfl⟩ := Nat.exists_eq_add_one_of_ne_zero (Nat.ne_zero_of_lt hfuel)
  cases h with
  | done hdone => exact ⟨p, readMembers_end hdone fuel true text p⟩
  | member hknown hnew hread hrest =>
    rw [List.map_cons, intercalate_cons, List.flatMap_map, List.append_assoc]
    obtain ⟨q, hmember⟩ := readMembers_member hknown hnew hread (moreMembers_first _ p) fuel
    obtain ⟨q', hrest⟩ := hrest.readMembers_behind (Nat.lt_of_succ_lt_succ hfuel) text q
    exact ⟨q', hmember.trans hrest⟩

/-- A record is read from members that build it. -/
theorem Builds.reads {members : List (String × Value)} (h : form.Builds [] form.start members a) :
    Reads form.read (.object members) a where
  opens := ⟨'\x7b', by decide, _, toList_compact_object _⟩
  onward := by
    intro text p
    have htext : (Value.object members).compact.toList ++ text =
        '\x7b' :: ([','].intercalate (members.map memberText) ++ '\x7d' :: text) := by
      rw [toList_compact_object, List.cons_append, List.append_assoc]
      rfl
    have hfuel : members.length <
        ('\x7b' :: ([','].intercalate (members.map memberText) ++ '\x7d' :: text)).length + 1 := by
      have hlength := length_le_length_intercalate (members.map memberText)
      rw [List.length_map] at hlength
      rw [List.length_cons, List.length_append, List.length_cons]
      omega
    obtain ⟨q, hmembers⟩ := h.readMembers_intercalate hfuel text (p.after '\x7b')
    refine ⟨q.after '\x7d', ?_⟩
    rw [htext, read, toValue_cons (by decide), ok_bind]
    simp only [Cursor.peek?, List.head?_cons, Cursor.next]
    rw [hmembers, ok_bind, endObject, skipSpace_cons (by decide)]
    rfl

end RecordForm

end Scaffold.Json
