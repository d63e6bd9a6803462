import Mathlib.Data.List.Count
import Mathlib.Data.List.Nodup
import Scaffold.Proofs.Template.Forgery

/-!
# One pass and two

Tokens may be replaced in passes of their own or all in one pass. Where a first pass leaves
the token of a name alone (`Spares`), the second pass over its result is one pass over both
(`Spares.replaceAll_replaceTokens`) if the first brings about none of these tokens, which
shows in their number. Those that it does bring about are filled by the second pass, but
are left over in one pass (`Spares.mem_findTokens_onePass`), however many tokens that one
replaces (`count_findTokens_replaceTokens_le`).
-/

namespace Scaffold.Template

open Text (replaceTokens replaceAll)

/-! ### The number of tokens -/

section
variable {n : List Char} (hn : isIdentifier n)
include hn

theorem count_findTokens_append_spelled (a b : List Char) :
    (findTokens (a ++ spelled n ++ b)).count n =
      (findTokens a).count n + (findTokens b).count n + 1 := by
  rw [findTokens_append_spelled hn, List.count_append, List.count_cons_self, Nat.add_assoc]

/-- A text has the tokens of its parts, and perhaps one more where they meet. -/
theorem count_findTokens_append_le (a b : List Char) :
    (findTokens a).count n + (findTokens b).count n ≤ (findTokens (a ++ b)).count n := by
  have hright : ∀ a b, (findTokens a).count n ≤ (findTokens (a ++ b)).count n := by
    intro a b
    induction a using occurrence_induction n with
    | free a h => simp [List.count_eq_zero_of_not_mem h]
    | between a a' _ iha' =>
      rw [List.append_assoc _ a' b, count_findTokens_append_spelled hn,
        count_findTokens_append_spelled hn]
      omega
  induction b using occurrence_induction n generalizing a with
  | free b h => simpa [List.count_eq_zero_of_not_mem h] using hright a b
  | between b b' ihb _ =>
    have hb := ihb a
    have hassoc : a ++ (b ++ spelled n ++ b') = a ++ b ++ spelled n ++ b' := by
      simp only [List.append_assoc]
    rw [hassoc, count_findTokens_append_spelled hn, count_findTokens_append_spelled hn]
    omega

end

/-! ### One token more -/

/-- A text with words and the token of one name replaced in one pass. -/
def onePass (words : List (List Char × List Char)) (n value text : List Char) : List Char :=
  replaceTokens (words ++ [(spelled n, value)]) text

theorem onePass_of_not_mem {words : List (List Char × List Char)} {n value : List Char}
    (hn : isIdentifier n) {text : List Char} (h : n ∉ findTokens text) :
    onePass words n value text = replaceTokens words text :=
  Text.replaceTokens_append_pair fun hi => h (mem_findTokens_iff.2 ⟨hn, hi⟩)

/-- What stands around the token of a name is replaced by itself. The pass over `pairs` copies the
token, the pass with one pair more puts a value there. -/
structure Spares (pairs : List (List Char × List Char)) (n value : List Char) : Prop where
  identifier : isIdentifier n
  copied : ∀ a b, replaceTokens pairs (a ++ spelled n ++ b) =
    replaceTokens pairs a ++ spelled n ++ replaceTokens pairs b
  filled : ∀ a b, onePass pairs n value (a ++ spelled n ++ b) =
    onePass pairs n value a ++ value ++ onePass pairs n value b

namespace Spares

variable {pairs : List (List Char × List Char)} {n value : List Char} (h : Spares pairs n value)
include h

/-- No token of the name is taken away. -/
theorem count_findTokens_le (text : List Char) :
    (findTokens text).count n ≤ (findTokens (replaceTokens pairs text)).count n := by
  induction text using occurrence_induction n with
  | free text hfree => simp [List.count_eq_zero_of_not_mem hfree]
  | between a b iha ihb =>
    rw [h.copied, count_findTokens_append_spelled h.identifier,
      count_findTokens_append_spelled h.identifier]
    omega

/-- Where none is brought about, to replace the token behind the pass is to replace it in
the pass. -/
theorem replaceAll_replaceTokens {text : List Char}
    (hcount : (findTokens (replaceTokens pairs text)).count n = (findTokens text).count n) :
    replaceAll (spelled n) value (replaceTokens pairs text) = onePass pairs n value text := by
  induction text using occurrence_induction n with
  | free text hfree =>
    rw [List.count_eq_zero_of_not_mem hfree, List.count_eq_zero] at hcount
    rw [onePass_of_not_mem h.identifier hfree]
    refine Text.replaceTokens_eq_self fun p hp _ hi => hcount ?_
    obtain rfl := List.mem_singleton.1 hp
    exact mem_findTokens_iff.2 ⟨h.identifier, hi⟩
  | between a b iha ihb =>
    have ha := h.count_findTokens_le a
    have hb := h.count_findTokens_le b
    rw [h.copied] at hcount ⊢
    rw [count_findTokens_append_spelled h.identifier, count_findTokens_append_spelled h.identifier]
      at hcount
    rw [replaceAll_append_self h.identifier, h.filled, iha (by omega), ihb (by omega)]

/-- Where one is brought about, it is left over in one pass. -/
theorem mem_findTokens_onePass {text : List Char}
    (hlt : (findTokens text).count n < (findTokens (replaceTokens pairs text)).count n) :
    n ∈ findTokens (onePass pairs n value text) := by
  induction text using occurrence_induction n with
  | free text hfree =>
    rw [onePass_of_not_mem h.identifier hfree]
    exact List.count_pos_iff.1 (Nat.lt_of_le_of_lt (Nat.zero_le _) hlt)
  | between a b iha ihb =>
    rw [h.copied, count_findTokens_append_spelled h.identifier,
      count_findTokens_append_spelled h.identifier] at hlt
    rw [h.filled, mem_findTokens_iff]
    refine ⟨h.identifier, ?_⟩
    -- the token is brought about before the occurrence or behind it
    rcases Nat.lt_or_ge ((findTokens a).count n)
      ((findTokens (replaceTokens pairs a)).count n) with ha | ha
    · have hi := (mem_findTokens_iff.1 (iha ha)).2
      rw [List.append_assoc]
      exact hi.trans (List.prefix_append _ _).isInfix
    · have hi := (mem_findTokens_iff.1 (ihb (by omega))).2
      exact hi.trans (List.suffix_append _ _).isInfix

/-- A token of another name that is left over stays left over with one pair more. -/
theorem count_findTokens_onePass_le {m : List Char} (hm : isIdentifier m) (hne : n ≠ m)
    (text : List Char) :
    (findTokens (replaceTokens pairs text)).count m ≤
      (findTokens (onePass pairs n value text)).count m := by
  induction text using occurrence_induction n with
  | free text hfree => exact onePass_of_not_mem h.identifier hfree ▸ Nat.le_refl _
  | between a b iha ihb =>
    have hbeq : (n == m) = false := by simpa using hne
    have hleft := count_findTokens_append_le hm (onePass pairs n value a) value
    have hall := count_findTokens_append_le hm (onePass pairs n value a ++ value)
      (onePass pairs n value b)
    rw [h.copied, findTokens_append_spelled h.identifier, List.count_append, List.count_cons, hbeq,
      h.filled]
    simp only [Bool.false_eq_true, if_false, Nat.add_zero]
    omega

end Spares

/-! ### Tokens with values -/

theorem spelledPairs_append (values later : List (List Char × List Char)) :
    spelledPairs (values ++ later) = spelledPairs values ++ spelledPairs later := List.map_append

section
variable {values : List (List Char × List Char)}

/-- A pass over tokens of other names. -/
theorem Spares.of_not_mem (hv : ∀ v ∈ values, isIdentifier v.1) {n value : List Char}
    (hn : isIdentifier n) (hnew : n ∉ values.map Prod.fst) :
    Spares (spelledPairs values) n value := by
  have hnone : values.lookup n = none := by
    refine List.lookup_eq_none_iff.2 fun v hv' => ?_
    simpa using fun heq => hnew (List.mem_map.2 ⟨v, hv', heq.symm⟩)
  have hv' : ∀ v ∈ values ++ [(n, value)], isIdentifier v.1 :=
    List.forall_mem_append.2 ⟨hv, List.forall_mem_singleton.2 hn⟩
  have hsome : (values ++ [(n, value)]).lookup n = some value := by
    rw [List.lookup_append, hnone]
    simp
  refine ⟨hn, fun a b => ?_, fun a b => ?_⟩
  · rw [replaceTokens_append_spelled hv hn, hnone, Option.getD_none]
  · have h := replaceTokens_append_spelled hv' hn a b
    rwa [hsome, Option.getD_some, spelledPairs_append] at h

/-- What is left over in one pass is left over with more tokens to replace too. -/
theorem count_findTokens_replaceTokens_le {later : List (List Char × List Char)}
    (hv : ∀ v ∈ values ++ later, isIdentifier v.1) (hnodup : ((values ++ later).map Prod.fst).Nodup)
    {m : List Char} (hm : isIdentifier m) (hlater : m ∉ later.map Prod.fst) (text : List Char) :
    (findTokens (replaceTokens (spelledPairs values) text)).count m ≤
      (findTokens (replaceTokens (spelledPairs (values ++ later)) text)).count m := by
  induction later generalizing values with
  | nil => simp
  | cons v later ih =>
    rw [List.map_cons, List.mem_cons, not_or] at hlater
    have hnew : v.1 ∉ values.map Prod.fst := by
      rw [List.map_append, List.map_cons, List.nodup_middle, List.nodup_cons] at hnodup
      exact fun hmem => hnodup.1 (List.mem_append_left _ hmem)
    rw [List.append_cons] at hv hnodup ⊢
    have hspares : Spares (spelledPairs values) v.1 v.2 :=
      .of_not_mem (fun w hw => hv w (by simp [hw])) (hv v (by simp)) hnew
    have hstep := hspares.count_findTokens_onePass_le hm (Ne.symm hlater.1) text
    have hmore := ih hv hnodup hlater.2
    rw [spelledPairs_append values [v]] at hmore
    exact Nat.le_trans hstep hmore

end

end Scaffold.Template
