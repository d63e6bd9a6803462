import Scaffold.Text.Replace

/-!
# The scan of a replacement

One equation for each case at the head of a text: `replaceTokens_of_some` where a token stands,
`replaceTokens_of_none` where none does. A stretch in which no token begins is copied as a whole
(`replaceTokens_append_of_none`), and a character that no token holds divides a text into two that
are replaced by themselves (`replaceTokens_append_cons`). So does one that tokens only begin with
(`replaceTokens_append_beginning`).
-/

namespace Scaffold.Text

variable {pairs : List (List Char × List Char)}

theorem isSome_after? {token text : List Char} : (after? token text).isSome ↔ token <+: text := by
  induction token generalizing text with
  | nil => simp [after?]
  | cons t token ih =>
    cases text with
    | nil => simp [after?]
    | cons c text => by_cases h : t = c <;> simp [after?, h, ih, List.cons_prefix_cons]

theorem tokenAtHead?_eq_none_iff {text : List Char} :
    tokenAtHead? pairs text = none ↔ ∀ p ∈ pairs, p.1 ≠ [] → ¬ p.1 <+: text := by
  simp only [tokenAtHead?, List.find?_eq_none, Bool.and_eq_true, Bool.not_eq_true',
    List.isEmpty_eq_false_iff, isSome_after?, not_and]

theorem of_tokenAtHead?_eq_some {text token value : List Char}
    (h : tokenAtHead? pairs text = some (token, value)) :
    token ≠ [] ∧ token <+: text ∧ (token, value) ∈ pairs := by
  have hp := List.find?_some h
  simp only [Bool.and_eq_true, Bool.not_eq_true', List.isEmpty_eq_false_iff,
    isSome_after?] at hp
  exact ⟨hp.1, hp.2, List.mem_of_find?_eq_some h⟩

theorem replaceFrom_eq_drop (skip : Nat) (text : List Char) :
    replaceFrom pairs skip text = replaceTokens pairs (text.drop skip) := by
  induction skip generalizing text with
  | zero => rfl
  | succ skip ih =>
    cases text with
    | nil => rfl
    | cons c text => exact ih text

@[simp] theorem replaceTokens_nil : replaceTokens pairs [] = [] := rfl

/-- Where no token stands, a character is copied. -/
theorem replaceTokens_of_none {c : Char} {text : List Char}
    (h : tokenAtHead? pairs (c :: text) = none) :
    replaceTokens pairs (c :: text) = c :: replaceTokens pairs text := by
  simp only [replaceTokens, replaceFrom, h]

/-- Where a token stands, its value is written and the scan goes on behind the token. -/
theorem replaceTokens_of_some {token value text : List Char}
    (h : tokenAtHead? pairs (token ++ text) = some (token, value)) :
    replaceTokens pairs (token ++ text) = value ++ replaceTokens pairs text := by
  obtain ⟨hne, -, -⟩ := of_tokenAtHead?_eq_some h
  cases token with
  | nil => exact absurd rfl hne
  | cons t token =>
    rw [List.cons_append] at h ⊢
    rw [replaceTokens, replaceFrom, h]
    simp only [List.length_cons, Nat.add_sub_cancel, replaceFrom_eq_drop, List.drop_left]

variable (pairs) in
/-- To prove something of every text, add a token to it or a character where none stands. -/
@[elab_as_elim]
theorem replace_induction {motive : List Char → Prop} (nil : motive [])
    (token : ∀ token value rest, tokenAtHead? pairs (token ++ rest) = some (token, value) →
      motive rest → motive (token ++ rest))
    (char : ∀ c rest, tokenAtHead? pairs (c :: rest) = none → motive rest → motive (c :: rest))
    (text : List Char) : motive text := by
  induction hn : text.length using Nat.strongRecOn generalizing text with
  | ind n ih =>
    cases text with
    | nil => exact nil
    | cons c text =>
      cases h : tokenAtHead? pairs (c :: text) with
      | none => exact char c text h (ih text.length (by simp [← hn]) text rfl)
      | some p =>
        obtain ⟨hne, ⟨rest, hrest⟩, -⟩ := of_tokenAtHead?_eq_some h
        have hlt : rest.length < n := by
          have := List.length_pos_iff.2 hne
          rw [← hn, ← hrest, List.length_append]
          omega
        rw [← hrest] at h ⊢
        exact token p.1 p.2 rest h (ih rest.length hlt rest rfl)

/-- A stretch in which no token begins is copied. -/
theorem replaceTokens_append_of_none {a b : List Char}
    (h : ∀ s, s ≠ [] → s <:+ a → tokenAtHead? pairs (s ++ b) = none) :
    replaceTokens pairs (a ++ b) = a ++ replaceTokens pairs b := by
  induction a with
  | nil => rfl
  | cons c a ih =>
    have hc : tokenAtHead? pairs (c :: (a ++ b)) = none := h (c :: a) (by simp) List.suffix_rfl
    rw [List.cons_append, replaceTokens_of_none hc,
      ih fun s hne hs => h s hne (hs.trans (List.suffix_cons c a)), List.cons_append]

/-- A text in which no token stands is copied. -/
theorem replaceTokens_eq_self {text : List Char} (h : ∀ p ∈ pairs, p.1 ≠ [] → ¬ p.1 <:+: text) :
    replaceTokens pairs text = text := by
  have hcopied : replaceTokens pairs (text ++ []) = text ++ replaceTokens pairs [] := by
    refine replaceTokens_append_of_none fun s _ hs => ?_
    rw [tokenAtHead?_eq_none_iff, List.append_nil]
    exact fun p hp hne hps => h p hp hne (hps.isInfix.trans hs.isInfix)
  simpa using hcopied

/-- A token without `d` that begins before a `d` ends before it. -/
theorem prefix_of_prefix_append_cons {token a b : List Char} {d : Char} (hd : d ∉ token)
    (h : token <+: a ++ d :: b) : token <+: a := by
  rcases List.prefix_or_prefix_of_prefix h (List.prefix_append a (d :: b)) with hp | ⟨s, hs⟩
  · exact hp
  · cases s with
    | nil => simp [← hs]
    | cons e s =>
      rw [← hs, List.prefix_append_right_inj, List.cons_prefix_cons] at h
      exact absurd (by simp [← hs, h.1]) hd

/-- What stands at the head of a text depends on the tokens that it begins with. -/
theorem tokenAtHead?_congr {a b : List Char} (h : ∀ p ∈ pairs, p.1 <+: a ↔ p.1 <+: b) :
    tokenAtHead? pairs a = tokenAtHead? pairs b := by
  induction pairs with
  | nil => rfl
  | cons p pairs ih =>
    have hp : (after? p.1 a).isSome = (after? p.1 b).isSome := by
      rw [Bool.eq_iff_iff, isSome_after?, isSome_after?, h p (by simp)]
    have ih := ih fun q hq => h q (by simp [hq])
    simp only [tokenAtHead?] at ih
    simp only [tokenAtHead?, List.find?_cons, hp, ih]

theorem tokenAtHead?_append_cons {a b : List Char} {d : Char} (hd : ∀ p ∈ pairs, d ∉ p.1) :
    tokenAtHead? pairs (a ++ d :: b) = tokenAtHead? pairs a :=
  tokenAtHead?_congr fun p hp =>
    ⟨prefix_of_prefix_append_cons (hd p hp), fun h => h.trans (List.prefix_append a _)⟩

/-- A character that no token holds divides a text. -/
theorem replaceTokens_append_cons {d : Char} (hd : ∀ p ∈ pairs, d ∉ p.1) (a b : List Char) :
    replaceTokens pairs (a ++ d :: b) = replaceTokens pairs a ++ d :: replaceTokens pairs b := by
  induction a using replace_induction pairs with
  | nil =>
    refine replaceTokens_of_none (tokenAtHead?_eq_none_iff.2 fun p hp hne h => hne ?_)
    exact List.prefix_nil.1 (prefix_of_prefix_append_cons (a := []) (hd p hp) h)
  | token token value rest h ih =>
    have heq : tokenAtHead? pairs (token ++ (rest ++ d :: b)) = some (token, value) := by
      rw [← List.append_assoc, tokenAtHead?_append_cons hd, h]
    rw [replaceTokens_of_some h, List.append_assoc, replaceTokens_of_some heq, ih,
      List.append_assoc]
  | char c rest h ih =>
    have hc : tokenAtHead? pairs (c :: (rest ++ d :: b)) = none :=
      (tokenAtHead?_append_cons (a := c :: rest) hd).trans h
    rw [List.cons_append, replaceTokens_of_none hc, replaceTokens_of_none h, ih, List.cons_append]

/-! ### Characters that only begin a token -/

section
variable {d : Char} (hd : ∀ p ∈ pairs, d ∉ p.1.tail)
include hd

theorem tokenAtHead?_append_of_ne_nil {a : List Char} (ha : a ≠ []) (b : List Char) :
    tokenAtHead? pairs (a ++ d :: b) = tokenAtHead? pairs a := by
  refine tokenAtHead?_congr fun p hp => ⟨fun h => ?_, fun h => h.trans (List.prefix_append a _)⟩
  have htail := hd p hp
  cases hword : p.1 with
  | nil => exact List.nil_prefix
  | cons t word =>
    cases a with
    | nil => exact absurd rfl ha
    | cons c a =>
      rw [hword, List.cons_append, List.cons_prefix_cons] at h
      rw [hword, List.tail_cons] at htail
      exact List.cons_prefix_cons.2 ⟨h.1, prefix_of_prefix_append_cons htail h.2⟩

/-- A character that tokens may begin with, but do not hold further on, ends what stands
before it. -/
theorem replaceTokens_append_beginning (a b : List Char) :
    replaceTokens pairs (a ++ d :: b) = replaceTokens pairs a ++ replaceTokens pairs (d :: b) := by
  induction a using replace_induction pairs with
  | nil => rfl
  | token token value rest h ih =>
    have hne : token ++ rest ≠ [] := by simp [(of_tokenAtHead?_eq_some h).1]
    have heq : tokenAtHead? pairs (token ++ (rest ++ d :: b)) = some (token, value) := by
      rw [← List.append_assoc, tokenAtHead?_append_of_ne_nil hd hne, h]
    rw [replaceTokens_of_some h, List.append_assoc, replaceTokens_of_some heq, ih,
      List.append_assoc]
  | char c rest h ih =>
    have hc : tokenAtHead? pairs (c :: (rest ++ d :: b)) = none :=
      (tokenAtHead?_append_of_ne_nil hd (a := c :: rest) (by simp) b).trans h
    rw [List.cons_append, replaceTokens_of_none hc, replaceTokens_of_none h, ih, List.cons_append]

end

/-! ### One pair more -/

/-- A token that does not stand in a text makes no difference to it. -/
theorem replaceTokens_append_pair {token value text : List Char} (h : ¬ token <:+: text) :
    replaceTokens (pairs ++ [(token, value)]) text = replaceTokens pairs text := by
  have hhead {s : List Char} (hs : s <:+ text) :
      tokenAtHead? (pairs ++ [(token, value)]) s = tokenAtHead? pairs s := by
    have hnone : tokenAtHead? [(token, value)] s = none := by
      refine tokenAtHead?_eq_none_iff.2 fun p hp _ hpre => h ?_
      obtain rfl := List.mem_singleton.1 hp
      exact hpre.isInfix.trans hs.isInfix
    rw [tokenAtHead?, List.find?_append, ← tokenAtHead?, ← tokenAtHead?, hnone, Option.or_none]
  induction text using replace_induction pairs with
  | nil => rfl
  | token t v rest ht ih =>
    have hmore := ih (fun hi => h (hi.trans (List.suffix_append _ _).isInfix)) fun hs =>
      hhead (hs.trans (List.suffix_append _ _))
    rw [replaceTokens_of_some ht, replaceTokens_of_some ((hhead List.suffix_rfl).trans ht), hmore]
  | char c rest hc ih =>
    have hmore := ih (fun hi => h (hi.trans (List.suffix_cons _ _).isInfix)) fun hs =>
      hhead (hs.trans (List.suffix_cons _ _))
    rw [replaceTokens_of_none hc, replaceTokens_of_none ((hhead List.suffix_rfl).trans hc), hmore]

end Scaffold.Text
