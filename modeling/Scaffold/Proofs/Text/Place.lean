import Mathlib.Data.List.Infix
import Mathlib.Data.List.Nodup
import Scaffold.Proofs.Text.Replace

/-!
# Words at their places

Where words cannot overlap (`NeverOverlap`), a place of a text is taken up by one of them at most
(`NeverOverlap.eq_of_takesUp`). A scan from left to right then replaces each of them wherever it
stands: what it gives is written place by place, by rules that look at the text as it was
(`Written`, `NeverOverlap.rewritten_replaceTokens`). The rules know no order of the words, and so it
makes no difference to the scan (`NeverOverlap.replaceTokens_perm`).
-/

namespace Scaffold.Text

/-- The word stands at place `j` of a text and reaches over place `i`. -/
def TakesUp (word text : List Char) (j i : Nat) : Prop :=
  word <+: text.drop j ∧ j ≤ i ∧ i < j + word.length

/-- What is written for place `i` of a text in which words have values. -/
inductive Written (pairs : List (List Char × List Char)) (text : List Char) (i : Nat) :
    List Char → Prop where
  /-- A word begins there: its value. -/
  | value {word value : List Char} : (word, value) ∈ pairs → TakesUp word text i i →
    Written pairs text i value
  /-- A word goes on there that began before: nothing. -/
  | inside {word value : List Char} {j : Nat} : (word, value) ∈ pairs → TakesUp word text j i →
    j < i → Written pairs text i []
  /-- No word takes the place up: its character. -/
  | kept {c : Char} : (∀ p ∈ pairs, ∀ j, ¬ TakesUp p.1 text j i) → text[i]? = some c →
    Written pairs text i [c]

/-- The result is what is written for the places of a text, one after the other. -/
def Rewritten (pairs : List (List Char × List Char)) (text result : List Char) : Prop :=
  ∃ piece : Nat → List Char, (∀ i < text.length, Written pairs text i (piece i)) ∧
    result = (List.range text.length).flatMap piece

/-- Words of which no two can overlap in a text: what one of them ends in neither begins another one
nor goes on with it. -/
structure NeverOverlap (words : List (List Char)) : Prop where
  nodup : words.Nodup
  ne_nil : ∀ word ∈ words, word ≠ []
  eq_of_comparable : ∀ v ∈ words, ∀ w ∈ words, ∀ ending ∈ v.tails, ending ≠ [] →
    ending <+: w ∨ w <+: ending → ending = v ∧ v = w

variable {pairs : List (List Char × List Char)}

theorem Written.perm {others : List (List Char × List Char)} {text piece : List Char} {i : Nat}
    (h : Written pairs text i piece) (hperm : pairs.Perm others) : Written others text i piece := by
  cases h with
  | value hp htakes => exact .value (hperm.mem_iff.1 hp) htakes
  | inside hp htakes hlt => exact .inside (hperm.mem_iff.1 hp) htakes hlt
  | kept hfree hc => exact .kept (fun p hp => hfree p (hperm.mem_iff.2 hp)) hc

/-! ### Places behind a beginning -/

section
variable {front text : List Char}

theorem takesUp_append_iff {word : List Char} {j i : Nat} :
    TakesUp word (front ++ text) (front.length + j) (front.length + i) ↔ TakesUp word text j i := by
  rw [TakesUp, TakesUp, List.drop_append, List.drop_eq_nil_of_le (Nat.le_add_right _ _),
    List.nil_append, Nat.add_sub_cancel_left]
  exact and_congr_right fun _ => by omega

variable (hfront : ∀ p ∈ pairs, ∀ j < front.length, p.1 <+: (front ++ text).drop j →
  j + p.1.length ≤ front.length)
include hfront

/-- Where no word reaches out of the beginning of a text, it does not matter to what follows. -/
theorem Written.append {i : Nat} {piece : List Char} (h : Written pairs text i piece) :
    Written pairs (front ++ text) (front.length + i) piece := by
  cases h with
  | value hp htakes => exact .value hp (takesUp_append_iff.2 htakes)
  | inside hp htakes hlt => exact .inside hp (takesUp_append_iff.2 htakes) (by omega)
  | kept hfree hc =>
    refine .kept (fun p hp j htakes => ?_) ?_
    · by_cases hj : j < front.length
      · have hend := hfront p hp j hj htakes.1
        have hreach := htakes.2.2
        omega
      · obtain ⟨k, rfl⟩ := Nat.exists_eq_add_of_le (Nat.le_of_not_lt hj)
        exact hfree p hp k (takesUp_append_iff.1 htakes)
    · rwa [List.getElem?_append_right (Nat.le_add_right _ _), Nat.add_sub_cancel_left]

theorem Rewritten.append {result : List Char} (h : Rewritten pairs text result)
    {first : Nat → List Char}
    (hfirst : ∀ i < front.length, Written pairs (front ++ text) i (first i)) :
    Rewritten pairs (front ++ text) ((List.range front.length).flatMap first ++ result) := by
  obtain ⟨piece, hpiece, rfl⟩ := h
  refine ⟨fun i => if i < front.length then first i else piece (i - front.length), ?_, ?_⟩
  · intro i hi
    by_cases hlt : i < front.length
    · simpa only [if_pos hlt] using hfirst i hlt
    · obtain ⟨k, rfl⟩ := Nat.exists_eq_add_of_le (Nat.le_of_not_lt hlt)
      rw [List.length_append] at hi
      simpa only [if_neg hlt, Nat.add_sub_cancel_left] using (hpiece k (by omega)).append hfront
  · rw [List.length_append, List.range_add, List.flatMap_append, List.flatMap_map]
    congr 1
    · refine List.flatMap_congr fun i hi => ?_
      rw [if_pos (List.mem_range.1 hi)]
    · refine List.flatMap_congr fun i _ => ?_
      rw [if_neg (by omega), Nat.add_sub_cancel_left]

end

/-- Where no word begins: the character, and then what is written for the rest. -/
theorem Rewritten.cons {c : Char} {rest result : List Char} (h : Rewritten pairs rest result)
    (hnone : ∀ p ∈ pairs, ¬ p.1 <+: c :: rest) : Rewritten pairs (c :: rest) (c :: result) := by
  have hfront : ∀ p ∈ pairs, ∀ j < [c].length, p.1 <+: ([c] ++ rest).drop j →
      j + p.1.length ≤ [c].length := by
    intro p hp j hj hstands
    obtain rfl : j = 0 := by simpa using hj
    exact absurd hstands (hnone p hp)
  have hfirst : ∀ i < [c].length, Written pairs ([c] ++ rest) i [c] := by
    intro i hi
    obtain rfl : i = 0 := by simpa using hi
    refine .kept (fun p hp j htakes => ?_) rfl
    obtain ⟨hstands, hj, -⟩ := htakes
    obtain rfl : j = 0 := Nat.le_zero.1 hj
    exact hnone p hp hstands
  exact h.append hfront hfirst

namespace NeverOverlap

theorem perm {words others : List (List Char)} (h : NeverOverlap words) (hperm : words.Perm others) :
    NeverOverlap others where
  nodup := hperm.nodup_iff.1 h.nodup
  ne_nil w hw := h.ne_nil w (hperm.mem_iff.2 hw)
  eq_of_comparable v hv w hw := h.eq_of_comparable v (hperm.mem_iff.2 hv) w (hperm.mem_iff.2 hw)

/-- A place is taken up by one word at most, which stands at one place. -/
theorem eq_of_takesUp {words : List (List Char)} (h : NeverOverlap words) {v w text : List Char}
    {i j k : Nat} (hv : v ∈ words) (hw : w ∈ words) (hvj : TakesUp v text j i)
    (hwk : TakesUp w text k i) : j = k ∧ v = w := by
  wlog hjk : j ≤ k generalizing v w j k
  · obtain ⟨heq, hwv⟩ := this hw hv hwk hvj (Nat.le_of_not_le hjk)
    exact ⟨heq.symm, hwv.symm⟩
  obtain ⟨hvj, hji, hiv⟩ := hvj
  obtain ⟨hwk, hki, hiw⟩ := hwk
  -- the end of the first word, from where the second one stands
  have hending : v.drop (k - j) <+: text.drop k := by
    have := hvj.drop (k - j)
    rwa [List.drop_drop, Nat.add_sub_cancel' hjk] at this
  have hlength : (v.drop (k - j)).length = v.length - (k - j) := List.length_drop
  have hne : v.drop (k - j) ≠ [] := by
    apply List.ne_nil_of_length_pos
    omega
  obtain ⟨heq, hvw⟩ := h.eq_of_comparable v hv w hw _ ((List.mem_tails _ _).2 (List.drop_suffix _ v))
    hne (List.prefix_or_prefix_of_prefix hending hwk)
  rw [heq] at hlength
  exact ⟨by omega, hvw⟩

variable (h : NeverOverlap (pairs.map (·.1)))
include h

theorem ne_nil_of_mem {p : List Char × List Char} (hp : p ∈ pairs) : p.1 ≠ [] :=
  h.ne_nil p.1 (List.mem_map_of_mem hp)

theorem eq_of_takesUp_of_mem {p q : List Char × List Char} {text : List Char} {i j k : Nat}
    (hp : p ∈ pairs) (hq : q ∈ pairs) (hpj : TakesUp p.1 text j i) (hqk : TakesUp q.1 text k i) :
    j = k ∧ p = q := by
  obtain ⟨heq, hword⟩ :=
    h.eq_of_takesUp (List.mem_map_of_mem hp) (List.mem_map_of_mem hq) hpj hqk
  exact ⟨heq, List.inj_on_of_nodup_map h.nodup hp hq hword⟩

/-- The rules leave no choice. -/
theorem written_unique {text piece other : List Char} {i : Nat} (hpiece : Written pairs text i piece)
    (hother : Written pairs text i other) : piece = other := by
  cases hpiece with
  | value hp htakes =>
    cases hother with
    | value hq htakes' => exact congrArg Prod.snd (h.eq_of_takesUp_of_mem hp hq htakes htakes').2
    | inside hq htakes' hlt =>
      exact absurd (h.eq_of_takesUp_of_mem hp hq htakes htakes').1 hlt.ne'
    | kept hfree => exact absurd htakes (hfree _ hp _)
  | inside hp htakes hlt =>
    cases hother with
    | value hq htakes' => exact absurd (h.eq_of_takesUp_of_mem hp hq htakes htakes').1 hlt.ne
    | inside => rfl
    | kept hfree => exact absurd htakes (hfree _ hp _)
  | kept hfree hc =>
    cases hother with
    | value hq htakes | inside hq htakes => exact absurd htakes (hfree _ hq _)
    | kept _ hd => rw [Option.some.inj (hc.symm.trans hd)]

theorem rewritten_unique {text result other : List Char} (hresult : Rewritten pairs text result)
    (hother : Rewritten pairs text other) : result = other := by
  obtain ⟨piece, hpiece, rfl⟩ := hresult
  obtain ⟨piece', hpiece', rfl⟩ := hother
  refine List.flatMap_congr fun i hi => ?_
  have hlt := List.mem_range.1 hi
  exact h.written_unique (hpiece i hlt) (hpiece' i hlt)

/-- Where a word begins: its value, and then what is written for the rest. -/
theorem rewritten_word_append {word value rest result : List Char} (hp : (word, value) ∈ pairs)
    (hrest : Rewritten pairs rest result) : Rewritten pairs (word ++ rest) (value ++ result) := by
  have htakes {i : Nat} (hi : i < word.length) : TakesUp word (word ++ rest) 0 i :=
    ⟨List.prefix_append _ _, Nat.zero_le i, by omega⟩
  have hfront : ∀ q ∈ pairs, ∀ j < word.length, q.1 <+: (word ++ rest).drop j →
      j + q.1.length ≤ word.length := by
    intro q hq j hj hstands
    have hlength := List.length_pos_iff.2 (h.ne_nil_of_mem hq)
    obtain ⟨rfl, rfl⟩ := h.eq_of_takesUp_of_mem hp hq (htakes hj) ⟨hstands, le_rfl, by omega⟩
    simp
  have hfirst : ∀ i < word.length,
      Written pairs (word ++ rest) i (if i = 0 then value else []) := by
    intro i hi
    split
    · subst i
      exact .value hp (htakes hi)
    · exact .inside hp (htakes hi) (by omega)
  have hvalue : (List.range word.length).flatMap (fun i => if i = 0 then value else []) = value := by
    obtain ⟨n, hn⟩ := Nat.exists_eq_succ_of_ne_zero
      (Nat.ne_of_gt (List.length_pos_iff.2 (h.ne_nil_of_mem hp)))
    rw [hn, List.range_succ_eq_map, List.flatMap_cons, List.flatMap_map]
    simp
  have happend := hrest.append hfront hfirst
  rwa [hvalue] at happend

/-- The scan replaces every word wherever it stands in the text. -/
theorem rewritten_replaceTokens (text : List Char) :
    Rewritten pairs text (replaceTokens pairs text) := by
  induction text using replace_induction pairs with
  | nil => exact ⟨fun _ => [], by simp, rfl⟩
  | token word value rest hhead ih =>
    rw [replaceTokens_of_some hhead]
    exact h.rewritten_word_append (of_tokenAtHead?_eq_some hhead).2.2 ih
  | char c rest hhead ih =>
    rw [replaceTokens_of_none hhead]
    have hnone := tokenAtHead?_eq_none_iff.1 hhead
    exact ih.cons fun p hp => hnone p hp (h.ne_nil_of_mem hp)

/-- The order of words that cannot overlap makes no difference. -/
theorem replaceTokens_perm {others : List (List Char × List Char)} (hperm : others.Perm pairs)
    (text : List Char) : replaceTokens others text = replaceTokens pairs text := by
  obtain ⟨piece, hpiece, hothers⟩ := (h.perm (hperm.symm.map _)).rewritten_replaceTokens text
  have hwritten : Rewritten pairs text (replaceTokens others text) :=
    ⟨piece, fun i hi => (hpiece i hi).perm hperm, hothers⟩
  exact h.rewritten_unique hwritten (h.rewritten_replaceTokens text)

end NeverOverlap

end Scaffold.Text
