import Scaffold.Json.Record
import Scaffold.Json.Value
import Scaffold.Proofs.Error.Steps

/-!
# Written values are read

A reader reads a written value if it makes the right thing of its compact text, wherever that
stands, and goes on right behind it (`Reads`). Strings are read with all their characters, since
every escape is undone (`readString_escapedChar`).
-/

namespace Scaffold.Json

open Cursor (isSpace)

/-! ### Strings -/

theorem hexValue?_fourDigits : ∀ code < 0x20,
    (fourDigits code).map Text.hexValue? = [some 0, some 0, some (code / 16), some (code % 16)] := by
  decide

theorem readCode_fourDigits {code : Nat} (h : code < 0x20) (text : List Char) (p : Position) :
    ∃ q, readCode ⟨fourDigits code ++ text, p⟩ = .ok (code, ⟨text, q⟩) := by
  have hvalues := hexValue?_fourDigits code h
  obtain ⟨d₁, ds, hdigits, h₁, hvalues⟩ := List.map_eq_cons_iff.1 hvalues
  obtain ⟨d₂, ds, rfl, h₂, hvalues⟩ := List.map_eq_cons_iff.1 hvalues
  obtain ⟨d₃, ds, rfl, h₃, hvalues⟩ := List.map_eq_cons_iff.1 hvalues
  obtain ⟨d₄, ds, rfl, h₄, hvalues⟩ := List.map_eq_cons_iff.1 hvalues
  obtain rfl := List.map_eq_nil_iff.1 hvalues
  have hcode : ((0 * 16 + 0) * 16 + code / 16) * 16 + code % 16 = code := by omega
  rw [hdigits]
  simp only [List.cons_append, List.nil_append, readCode, h₁, h₂, h₃, h₄, hcode]
  exact ⟨_, rfl⟩

theorem exists_letter_of_escaped :
    ∀ c ∈ ['"', '\\', '\x08', '\x0c', '\n', '\r', '\t'],
      ∃ letter, escapeLetter? letter = some c ∧ escapedChar c = ['\\', letter] := by
  simp only [List.forall_mem_cons, List.not_mem_nil, false_imp_iff, implies_true, and_true]
  exact ⟨⟨'"', rfl, rfl⟩, ⟨'\\', rfl, rfl⟩, ⟨'b', rfl, rfl⟩, ⟨'f', rfl, rfl⟩, ⟨'n', rfl, rfl⟩,
    ⟨'r', rfl, rfl⟩, ⟨'t', rfl, rfl⟩⟩

/-- A character is written by a letter behind a backslash, by its code, or as it is. -/
theorem escapedChar_cases (c : Char) :
    (∃ letter, escapeLetter? letter = some c ∧ escapedChar c = ['\\', letter]) ∨
    (c.toNat < 0x20 ∧ escapedChar c = ['\\', 'u'] ++ fourDigits c.toNat) ∨
    (c ≠ '"' ∧ c ≠ '\\' ∧ ¬ c.toNat < 0x20 ∧ escapedChar c = [c]) := by
  by_cases hletter : c ∈ ['"', '\\', '\x08', '\x0c', '\n', '\r', '\t']
  · exact .inl (exists_letter_of_escaped c hletter)
  · simp only [List.mem_cons, List.not_mem_nil, or_false, not_or] at hletter
    obtain ⟨hquote, hbackslash, hb, hf, hn, hr, ht⟩ := hletter
    by_cases hcontrol : c.toNat < 0x20
    · refine .inr (.inl ⟨hcontrol, ?_⟩)
      simp only [escapedChar, hquote, hbackslash, hb, hf, hn, hr, ht, hcontrol, if_false, if_true]
    · refine .inr (.inr ⟨hquote, hbackslash, hcontrol, ?_⟩)
      simp only [escapedChar, hquote, hbackslash, hb, hf, hn, hr, ht, hcontrol, if_false]

theorem readEscape_letter {letter c : Char} (h : escapeLetter? letter = some c) (text : List Char)
    (p : Position) : readEscape ⟨letter :: text, p⟩ = .ok (c, ⟨text, p.after letter⟩) := by
  -- only a `u` is not looked up
  have hu : letter ≠ 'u' := by
    rintro rfl
    simp [escapeLetter?] at h
  simp only [readEscape, Cursor.peek?, Cursor.next, List.head?_cons]
  rw [h]

theorem readEscape_code {c : Char} (h : c.toNat < 0x20) (text : List Char) (p : Position) :
    ∃ q, readEscape ⟨'u' :: fourDigits c.toNat ++ text, p⟩ = .ok (c, ⟨text, q⟩) := by
  obtain ⟨q, hcode⟩ := readCode_fourDigits h text (p.after 'u')
  have htrailing : isTrailing c.toNat = false := by
    simp only [isTrailing, Bool.and_eq_false_iff, decide_eq_false_iff_not]
    omega
  have hleading : isLeading c.toNat = false := by
    simp only [isLeading, Bool.and_eq_false_iff, decide_eq_false_iff_not]
    omega
  refine ⟨q, ?_⟩
  simp [readEscape, readCodeEscape, Cursor.peek?, Cursor.next, hcode, htrailing, hleading]
  rfl

/-- Reading undoes the escape of a character. -/
theorem readString_escapedChar (c : Char) (fuel : Nat) (text : List Char) (p : Position) :
    ∃ q, readString (fuel + 1) ⟨escapedChar c ++ text, p⟩ = do
      let (rest, d) ← readString fuel ⟨text, q⟩
      return (c :: rest, d) := by
  rcases escapedChar_cases c with ⟨letter, hletter, hc⟩ | ⟨hcontrol, hc⟩ |
    ⟨hquote, hbackslash, hcontrol, hc⟩
  · rw [hc]
    refine ⟨(p.after '\\').after letter, ?_⟩
    simp [readString, Cursor.peek?, Cursor.next, readEscape_letter hletter]
  · obtain ⟨q, hescape⟩ := readEscape_code hcontrol text (p.after '\\')
    rw [hc]
    refine ⟨q, ?_⟩
    rw [List.cons_append] at hescape
    simp [readString, Cursor.peek?, Cursor.next, hescape]
  · rw [hc]
    refine ⟨p.after c, ?_⟩
    simp [readString, Cursor.peek?, Cursor.next, hquote, hbackslash, hcontrol]

theorem readString_flatMap (cs text : List Char) {fuel : Nat} (h : cs.length < fuel)
    (p : Position) :
    ∃ q, readString fuel ⟨cs.flatMap escapedChar ++ '"' :: text, p⟩ = .ok (cs, ⟨text, q⟩) := by
  induction cs generalizing fuel p with
  | nil =>
    obtain ⟨fuel, rfl⟩ := Nat.exists_eq_add_one_of_ne_zero (Nat.ne_zero_of_lt h)
    exact ⟨p.after '"', rfl⟩
  | cons c cs ih =>
    obtain ⟨fuel, rfl⟩ := Nat.exists_eq_add_one_of_ne_zero (Nat.ne_zero_of_lt h)
    obtain ⟨q, hfirst⟩ :=
      readString_escapedChar c fuel (cs.flatMap escapedChar ++ '"' :: text) p
    obtain ⟨q', hrest⟩ := ih (Nat.lt_of_succ_lt_succ h) q
    refine ⟨q', ?_⟩
    rw [List.flatMap_cons, List.append_assoc, hfirst, hrest]
    rfl

theorem escapedChar_ne_nil (c : Char) : escapedChar c ≠ [] := by
  rcases escapedChar_cases c with ⟨_, -, hc⟩ | ⟨-, hc⟩ | ⟨-, -, -, hc⟩ <;> simp [hc]

/-- What takes a character for each step has as many as there are steps. -/
theorem length_le_length_flatMap {α : Type} {f : α → List Char} (hf : ∀ a, f a ≠ []) (l : List α) :
    l.length ≤ (l.flatMap f).length := by
  induction l with
  | nil => simp
  | cons a l ih =>
    have hpos := List.length_pos_iff.2 (hf a)
    rw [List.flatMap_cons, List.length_append, List.length_cons]
    omega

theorem stringAt_stringText (s : String) (text : List Char) (p : Position) :
    ∃ q, stringAt ⟨s.toList.flatMap escapedChar ++ '"' :: text, p⟩ = .ok (s, ⟨text, q⟩) := by
  have hfuel : s.toList.length < (s.toList.flatMap escapedChar ++ '"' :: text).length + 1 := by
    have hlength := length_le_length_flatMap escapedChar_ne_nil s.toList
    rw [List.length_append]
    omega
  obtain ⟨q, hread⟩ := readString_flatMap s.toList text hfuel p
  refine ⟨q, ?_⟩
  rw [stringAt, hread, ok_bind]
  exact congrArg (fun s => Except.ok (s, _)) String.ofList_toList

/-! ### Values -/

/-- The characters that strings, truth values and brackets begin with. -/
def opening : List Char := ['"', 't', 'f', '[', '\x7b']

/-- A reader reads a value as `a` if it does so wherever the text of the value stands, and goes on
behind it. -/
structure Reads {α : Type} (read : Reader α) (v : Value) (a : α) : Prop where
  opens : ∃ c ∈ opening, ∃ more, v.compact.toList = c :: more
  onward : ∀ text p, ∃ q, read ⟨v.compact.toList ++ text, p⟩ = .ok (a, ⟨text, q⟩)

theorem of_mem_opening : ∀ c ∈ opening, isSpace c = false ∧ c ≠ ']' ∧ c ≠ 'n' := by
  simp only [opening, List.forall_mem_cons, List.not_mem_nil, false_imp_iff, implies_true, and_true]
  decide

theorem skipSpace_cons {c : Char} (h : isSpace c = false) (text : List Char) (p : Position) :
    Cursor.skipSpace ⟨c :: text, p⟩ = ⟨c :: text, p⟩ := by
  simp [Cursor.skipSpace, Cursor.skipWhile, Cursor.skipWhile.go, h]

theorem toValue_cons {c : Char} (h : isSpace c = false) (text : List Char) (p : Position) :
    toValue ⟨c :: text, p⟩ = .ok ⟨c :: text, p⟩ := by
  simp [toValue, skipSpace_cons h]

theorem skipWord_append (letters text : List Char) (p : Position) :
    ∃ q, skipWord letters ⟨letters ++ text, p⟩ = .ok ⟨text, q⟩ := by
  induction letters generalizing p with
  | nil => exact ⟨p, rfl⟩
  | cons c letters ih =>
    obtain ⟨q, hrest⟩ := ih (p.after c)
    exact ⟨q, by simpa [skipWord, Cursor.peek?, Cursor.next] using hrest⟩

theorem toList_compact_string (s : String) :
    (Value.string s).compact.toList = '"' :: (s.toList.flatMap escapedChar ++ ['"']) := by
  simp [Value.compact, stringText]

/-- Every string is read as it was. -/
theorem reads_string (s : String) : Reads string (.string s) s where
  opens := ⟨'"', by decide, _, toList_compact_string s⟩
  onward := by
    intro text p
    obtain ⟨q, hread⟩ := stringAt_stringText s text (p.after '"')
    refine ⟨q, ?_⟩
    rw [toList_compact_string, List.cons_append, List.append_assoc, string, stringFor,
      toValue_cons (by decide), ok_bind]
    exact hread

theorem reads_variant (s : String) : Reads variant (.string s) s where
  opens := (reads_string s).opens
  onward := by
    intro text p
    obtain ⟨q, hread⟩ := stringAt_stringText s text (p.after '"')
    refine ⟨q, ?_⟩
    rw [toList_compact_string, List.cons_append, List.append_assoc, variant,
      skipSpace_cons (by decide)]
    exact hread

theorem reads_bool (b : Bool) : Reads bool (.bool b) b where
  opens := by cases b <;> exact ⟨_, by decide, _, rfl⟩
  onward := by
    intro text p
    cases b with
    | true =>
      obtain ⟨q, hword⟩ := skipWord_append "rue".toList text (p.after 't')
      have htext : (Value.bool true).compact.toList ++ text = 't' :: ("rue".toList ++ text) := rfl
      refine ⟨q, ?_⟩
      rw [htext, bool, toValue_cons (by decide), ok_bind]
      simp only [Cursor.peek?, List.head?_cons, Cursor.next, hword, ok_bind]
      rfl
    | false =>
      obtain ⟨q, hword⟩ := skipWord_append "alse".toList text (p.after 'f')
      have htext : (Value.bool false).compact.toList ++ text = 'f' :: ("alse".toList ++ text) := rfl
      refine ⟨q, ?_⟩
      rw [htext, bool, toValue_cons (by decide), ok_bind]
      simp only [Cursor.peek?, List.head?_cons, Cursor.next, hword, ok_bind]
      rfl

theorem Reads.map {α β : Type} {read : Reader α} {v : Value} {a : α} (h : Reads read v a)
    (f : α → β) : Reads (f <$> read) v (f a) where
  opens := h.opens
  onward := by
    intro text p
    obtain ⟨q, hread⟩ := h.onward text p
    refine ⟨q, ?_⟩
    change StateT.run (f <$> read) _ = _
    rw [StateT.run_map]
    change Prod.map f id <$> read _ = _
    rw [hread]
    rfl

theorem Reads.optional {α : Type} {read : Reader α} {v : Value} {a : α} (h : Reads read v a) :
    Reads (optional read) v (some a) where
  opens := h.opens
  onward := by
    intro text p
    obtain ⟨c, hc, more, htext⟩ := h.opens
    obtain ⟨q, hread⟩ := h.onward text p
    refine ⟨q, ?_⟩
    -- an absent value begins with an `n`
    obtain ⟨hspace, -, hnone⟩ := of_mem_opening c hc
    rw [htext, List.cons_append] at hread ⊢
    rw [Json.optional, skipSpace_cons hspace]
    simp only [Cursor.peek?, List.head?_cons, Option.some.injEq, hnone, if_false, hread]
    rfl

/-- The text of a value that is read is parsed. -/
theorem Reads.parse {α : Type} {read : Reader α} {v : Value} {a : α} (h : Reads read v a) :
    parse read v.compact = .ok a := by
  obtain ⟨q, hread⟩ := h.onward [] ⟨1, 0⟩
  rw [List.append_nil] at hread
  rw [Json.parse, Cursor.start, hread]
  rfl

end Scaffold.Json
