import Scaffold.Proofs.Text.Case

/-!
# Words of a text

The words of a text hold all of it but the separators (`flatten_splitWords`), so that its
camel-cased form is what it is without them, with the case of its letters changed
(`recased_camelCase`). From one character to the next the number of the word grows just where a word
ends (`wordNumber_succ`), which tells what parts words and what does not (`splitWords_exact`).
-/

namespace Scaffold.Text

/-- A text without its separators. -/
def withoutSeparators (cs : List Char) : List Char := cs.filter fun c => !isSeparator c

/-! ### Words put together -/

theorem flatten_splitWords (cs : List Char) : (splitWords cs).flatten = withoutSeparators cs := by
  induction cs with
  | nil => rfl
  | cons c rest ih =>
    rw [splitWords]
    by_cases hseparator : isSeparator c
    · rw [if_pos hseparator, ih, withoutSeparators, withoutSeparators,
        List.filter_cons_of_neg (by simpa using hseparator)]
    · rw [if_neg hseparator, withoutSeparators, List.filter_cons_of_pos (by simpa using hseparator),
        ← withoutSeparators, ← ih]
      split
      · rfl
      · split <;> simp [*]

/-- Words in lower case, each with a capital. -/
theorem recased_flatMap_capitalize (words : List (List Char)) :
    Recased words.flatten (words.flatMap fun w => capitalize (lowerText w)) := by
  induction words with
  | nil => exact .nil
  | cons w words ih =>
    rw [List.flatten_cons, List.flatMap_cons]
    exact ((recased_lowerText w).trans (recased_capitalize _)).append ih

theorem recased_camelCase (cs : List Char) : Recased (withoutSeparators cs) (camelCase cs) := by
  rw [← flatten_splitWords, camelCase]
  split
  case h_1 hwords =>
    rw [hwords]
    exact .nil
  case h_2 word words hwords =>
    rw [hwords, List.flatten_cons]
    exact (recased_lowerText word).append (recased_flatMap_capitalize words)

/-! ### The words one by one -/

theorem splitWords_of_isSeparator {c : Char} (h : isSeparator c = true) (rest : List Char) :
    splitWords (c :: rest) = splitWords rest := by
  rw [splitWords, if_pos h]

theorem splitWords_of_endsWord {c : Char} {rest : List Char} (hc : isSeparator c = false)
    (h : endsWord c rest = true) : splitWords (c :: rest) = [c] :: splitWords rest := by
  rw [splitWords, if_neg (by simp [hc]), if_pos h]

/-- Where no word ends, the word goes on with the next character. -/
theorem exists_splitWords_of_not_endsWord {c : Char} {rest : List Char} (hc : isSeparator c = false)
    (h : endsWord c rest = false) : ∃ word words, splitWords rest = word :: words ∧
      splitWords (c :: rest) = (c :: word) :: words := by
  have hne : splitWords rest ≠ [] := by
    intro hnil
    have hflatten := flatten_splitWords rest
    cases rest with
    | nil => simp [endsWord] at h
    | cons d rest =>
      have hd : isSeparator d = false := by
        simp only [endsWord, Bool.or_eq_false_iff] at h
        exact h.1.1
      rw [hnil, withoutSeparators, List.filter_cons_of_pos (by simp [hd])] at hflatten
      cases hflatten
  obtain ⟨word, words, hwords⟩ := List.exists_cons_of_ne_nil hne
  refine ⟨word, words, hwords, ?_⟩
  rw [splitWords, if_neg (by simp [hc]), if_neg (by simp [h]), hwords]

theorem ne_nil_of_mem_splitWords {cs word : List Char} (h : word ∈ splitWords cs) : word ≠ [] := by
  induction cs generalizing word with
  | nil => cases h
  | cons c rest ih =>
    cases hc : isSeparator c with
    | true => exact ih (splitWords_of_isSeparator hc rest ▸ h)
    | false =>
      cases hend : endsWord c rest with
      | true =>
        rw [splitWords_of_endsWord hc hend] at h
        rcases List.mem_cons.1 h with rfl | h
        · exact List.cons_ne_nil c []
        · exact ih h
      | false =>
        obtain ⟨first, words, hwords, hsplit⟩ := exists_splitWords_of_not_endsWord hc hend
        rw [hsplit] at h
        rcases List.mem_cons.1 h with rfl | h
        · exact List.cons_ne_nil c first
        · exact ih (hwords ▸ List.mem_cons_of_mem first h)

/-! ### Where words part -/

/-- The number of the word that holds the character at place `k` of words read one after
the other. -/
def numberAt : List (List Char) → Nat → Nat
  | [], _ => 0
  | word :: words, k => if k < word.length then 0 else numberAt words (k - word.length) + 1

/-- The number of the word that holds the character at place `i` of a text, where the words hold all
characters but the separators. -/
def wordNumber (words : List (List Char)) (cs : List Char) (i : Nat) : Nat :=
  numberAt words (withoutSeparators (cs.take i)).length

theorem exists_getElem?_numberAt {words : List (List Char)} {k : Nat} {c : Char}
    (h : words.flatten[k]? = some c) : ∃ word, words[numberAt words k]? = some word ∧ c ∈ word := by
  induction words generalizing k with
  | nil => simp at h
  | cons word words ih =>
    rw [List.flatten_cons] at h
    by_cases hk : k < word.length
    · rw [List.getElem?_append_left hk] at h
      exact ⟨word, by simp [numberAt, hk], List.mem_of_getElem? h⟩
    · rw [List.getElem?_append_right (Nat.le_of_not_lt hk)] at h
      obtain ⟨holder, hholder, hc⟩ := ih h
      exact ⟨holder, by simpa [numberAt, hk] using hholder, hc⟩

theorem wordNumber_zero (cs : List Char) : wordNumber (splitWords cs) cs 0 = 0 := by
  rw [wordNumber, List.take_zero]
  cases hwords : splitWords cs with
  | nil => rfl
  | cons word words =>
    have hne : word ≠ [] := ne_nil_of_mem_splitWords (hwords ▸ List.mem_cons_self)
    exact if_pos (List.length_pos_iff.2 hne)

theorem wordNumber_cons (c : Char) (rest : List Char) (i : Nat) :
    wordNumber (splitWords (c :: rest)) (c :: rest) (i + 1) =
      wordNumber (splitWords rest) rest i + if !isSeparator c && endsWord c rest then 1 else 0 := by
  cases hc : isSeparator c with
  | true => simp [wordNumber, withoutSeparators, splitWords_of_isSeparator hc, hc]
  | false =>
    have hlength : (withoutSeparators ((c :: rest).take (i + 1))).length =
        (withoutSeparators (rest.take i)).length + 1 := by
      simp [withoutSeparators, hc]
    cases hend : endsWord c rest with
    | true =>
      rw [wordNumber, wordNumber, hlength, splitWords_of_endsWord hc hend]
      simp [numberAt]
    | false =>
      obtain ⟨word, words, hwords, hsplit⟩ := exists_splitWords_of_not_endsWord hc hend
      rw [wordNumber, wordNumber, hlength, hsplit, hwords]
      simp [numberAt]

/-- From one character to the next the number grows where a word ends, and nowhere else. -/
theorem wordNumber_succ {cs : List Char} {i : Nat} {c : Char} (h : cs[i]? = some c) :
    wordNumber (splitWords cs) cs (i + 1) = wordNumber (splitWords cs) cs i +
      if !isSeparator c && endsWord c (cs.drop (i + 1)) then 1 else 0 := by
  induction cs generalizing i with
  | nil => simp at h
  | cons d rest ih =>
    cases i with
    | zero =>
      obtain rfl : d = c := by simpa using h
      rw [wordNumber_cons, wordNumber_zero, wordNumber_zero]
      simp
    | succ i =>
      rw [wordNumber_cons, ih (by simpa using h), wordNumber_cons]
      simp only [List.drop_succ_cons]
      omega

theorem wordNumber_le_of_le {cs : List Char} {i j : Nat} (h : i ≤ j) :
    wordNumber (splitWords cs) cs i ≤ wordNumber (splitWords cs) cs j := by
  induction j with
  | zero => exact Nat.le_of_eq (by rw [Nat.le_zero.1 h])
  | succ j ih =>
    rcases Nat.le_or_eq_of_le_succ h with hle | rfl
    · apply Nat.le_trans (ih hle)
      cases hc : cs[j]? with
      | some c => exact wordNumber_succ hc ▸ Nat.le_add_right _ _
      | none =>
        have hlength := List.getElem?_eq_none_iff.1 hc
        apply Nat.le_of_eq
        rw [wordNumber, wordNumber, List.take_of_length_le hlength,
          List.take_of_length_le (Nat.le_succ_of_le hlength)]
    · exact Nat.le_refl _

/-- Between a character of a word and a separator behind it a word ends. -/
theorem exists_end_before_separator {cs : List Char} {i k : Nat} {c d : Char} (hik : i < k)
    (hc : cs[i]? = some c) (hplain : isSeparator c = false) (hd : cs[k]? = some d)
    (hseparator : isSeparator d = true) : ∃ m b, i ≤ m ∧ m < k ∧ cs[m]? = some b ∧
      isSeparator b = false ∧ endsWord b (cs.drop (m + 1)) = true := by
  induction k generalizing d with
  | zero => cases hik
  | succ k ih =>
    obtain ⟨hlength, rfl⟩ := List.getElem?_eq_some_iff.1 hd
    have hends (b : Char) : endsWord b (cs.drop (k + 1)) = true := by
      rw [List.drop_eq_getElem_cons hlength]
      simp [endsWord, hseparator]
    rcases Nat.lt_succ_iff_lt_or_eq.1 hik with hlt | rfl
    · have hk : cs[k]? = some cs[k] := List.getElem?_eq_getElem (Nat.lt_of_succ_lt hlength)
      cases hs : isSeparator cs[k] with
      | true =>
        obtain ⟨m, b, him, hmk, hb⟩ := ih hlt hk hs
        exact ⟨m, b, him, Nat.lt_succ_of_lt hmk, hb⟩
      | false => exact ⟨k, cs[k], Nat.le_of_lt hlt, Nat.lt_succ_self k, hk, hs, hends _⟩
    · exact ⟨i, c, Nat.le_refl i, Nat.lt_succ_self i, hc, hplain, hends c⟩

theorem endsWord_cons_iff {c d : Char} (hd : isSeparator d = false) (rest : List Char) :
    endsWord c (d :: rest) = true ↔ isLower c = true ∧ isUpper d = true ∨
      isUpper c = true ∧ isUpper d = true ∧ ∃ e, rest[0]? = some e ∧ isLower e = true := by
  simp [endsWord, hd, Option.any_eq_true, and_assoc, List.head?_eq_getElem?]

/-- How a text falls into words: they hold all of it but the separators, and between two characters
that are none there is a boundary at a change of case, before the last capital of an acronym with a
lower-case letter behind it, and where a separator stands. -/
structure FallsInto (cs : List Char) (words : List (List Char)) : Prop where
  ne_nil : ∀ word ∈ words, word ≠ []
  flatten : words.flatten = withoutSeparators cs
  /-- The word of a character's number holds it. -/
  holds : ∀ {i c}, cs[i]? = some c → isSeparator c = false →
    ∃ word, words[wordNumber words cs i]? = some word ∧ c ∈ word
  adjacent : ∀ {i c d}, cs[i]? = some c → cs[i + 1]? = some d → isSeparator c = false →
    isSeparator d = false → (wordNumber words cs i ≠ wordNumber words cs (i + 1) ↔
      isLower c = true ∧ isUpper d = true ∨
        isUpper c = true ∧ isUpper d = true ∧ ∃ e, cs[i + 2]? = some e ∧ isLower e = true)
  separated : ∀ {i j k c d e}, i < k → k < j → cs[i]? = some c → isSeparator c = false →
    cs[j]? = some d → isSeparator d = false → cs[k]? = some e → isSeparator e = true →
    wordNumber words cs i ≠ wordNumber words cs j

theorem fallsInto_splitWords (cs : List Char) : FallsInto cs (splitWords cs) where
  ne_nil _ := ne_nil_of_mem_splitWords
  flatten := flatten_splitWords cs
  holds {i c} hc hplain := by
    obtain ⟨hlength, rfl⟩ := List.getElem?_eq_some_iff.1 hc
    apply exists_getElem?_numberAt
    have hcs : cs = cs.take i ++ cs[i] :: cs.drop (i + 1) := by
      rw [List.getElem_cons_drop, List.take_append_drop]
    have hsplit : withoutSeparators cs = withoutSeparators (cs.take i) ++
        cs[i] :: withoutSeparators (cs.drop (i + 1)) := by
      apply (congrArg withoutSeparators hcs).trans
      rw [withoutSeparators, List.filter_append, List.filter_cons_of_pos (by simpa using hplain)]
      rfl
    rw [flatten_splitWords, hsplit, List.getElem?_append_right (Nat.le_refl _), Nat.sub_self]
    rfl
  adjacent {i c d} hc hd hplain hplain' := by
    obtain ⟨hlength, rfl⟩ := List.getElem?_eq_some_iff.1 hd
    have hends := endsWord_cons_iff (c := c) hplain' (cs.drop (i + 2))
    rw [List.getElem?_drop] at hends
    rw [wordNumber_succ hc, List.drop_eq_getElem_cons hlength, ← hends, hplain]
    simp
  separated hik hkj hc hplain _ _ he hseparator := by
    obtain ⟨m, b, him, hmk, hb, hbplain, hends⟩ :=
      exists_end_before_separator hik hc hplain he hseparator
    apply Nat.ne_of_lt
    calc wordNumber (splitWords cs) cs _
      _ ≤ wordNumber (splitWords cs) cs m := wordNumber_le_of_le him
      _ < wordNumber (splitWords cs) cs (m + 1) := by simp [wordNumber_succ hb, hbplain, hends]
      _ ≤ wordNumber (splitWords cs) cs _ := wordNumber_le_of_le (by omega)

theorem camelCase_eq_nil_iff {cs : List Char} : camelCase cs = [] ↔ ∀ c ∈ cs, isSeparator c = true := by
  rw [(recased_camelCase cs).eq_nil_iff, withoutSeparators, List.filter_eq_nil_iff]
  simp

/-- The words of a text, and its camel-cased form: the first word in lower case, then the others in
lower case but for a capital. Only a text without words has an empty one. -/
theorem splitWords_exact (s : String) :
    FallsInto s.toList (splitWords s.toList) ∧
      (camelCased s).toList = lowerText ((splitWords s.toList).headD []) ++
        (splitWords s.toList).tail.flatMap (fun word => capitalize (lowerText word)) ∧
      (camelCased s = "" ↔ ∀ c ∈ s.toList, isSeparator c = true) := by
  refine ⟨fallsInto_splitWords s.toList, ?_, ?_⟩
  · rw [camelCased, String.toList_ofList, camelCase]
    cases splitWords s.toList <;> rfl
  · rw [camelCased, String.ofList_eq_empty_iff]
    exact camelCase_eq_nil_iff

/-- Digits are of neither case, so that no word ends before the capital behind one. -/
example : splitWords "HTTPServer-my garage2Go".toList =
    ["HTTP".toList, "Server".toList, "my".toList, "garage2Go".toList] := by decide +kernel

end Scaffold.Text
