import Scaffold.Proofs.Text.Replace
import Scaffold.Template.Token

/-!
# Occurrences of tokens

A token begins with a brace and holds no other one of its kind, so that two tokens of a text never
overlap. Hence `findTokens` finds a name exactly where its token stands (`mem_findTokens_iff`), and
a text may be taken apart token by token (`token_induction`): `findTokens_spelled` and
`replaceTokens_spelled` say what happens at a token, `findTokens_of_none` and
`replaceTokens_of_tokenAtHead?_eq_none` what happens at any other character.
-/

namespace Scaffold.Template

open Text (replaceTokens replaceAll)

/-- The token with the given name. -/
def spelled (name : List Char) : List Char := opening ++ name ++ closing

theorem toList_delimited (name : String) : (delimited name).toList = spelled name.toList := by
  simp [delimited, spelled, opening, closing, String.toList_append]

/-! ### Identifiers -/

theorem continuesIdentifier_of_mem {name : List Char} (h : isIdentifier name) {c : Char}
    (hc : c ∈ name) : continuesIdentifier c := by
  cases name with
  | nil => simp at hc
  | cons d name =>
    simp only [isIdentifier, Bool.and_eq_true, List.all_eq_true] at h
    rcases List.mem_cons.1 hc with rfl | hc
    · have := h.1
      simp only [startsIdentifier, continuesIdentifier, Bool.or_eq_true, Char.isAlphanum] at this ⊢
      exact this.imp_left .inl
    · exact h.2 c hc

theorem brace_not_mem {name : List Char} (h : isIdentifier name) : '{' ∉ name :=
  fun hc => absurd (continuesIdentifier_of_mem h hc) (by decide)

theorem percent_not_mem {name : List Char} (h : isIdentifier name) : '%' ∉ name :=
  fun hc => absurd (continuesIdentifier_of_mem h hc) (by decide)

theorem spelled_prefix_cons_iff {name text : List Char} {c : Char} :
    spelled name <+: c :: text ↔ c = '{' ∧ (spelled name).tail <+: text := by
  simp only [spelled, opening, List.cons_append, List.cons_prefix_cons, List.tail_cons, eq_comm]

/-- Behind the brace that it begins with, a token has no other. -/
theorem brace_not_mem_tail_spelled {name : List Char} (h : isIdentifier name) :
    '{' ∉ (spelled name).tail := by
  simp [spelled, opening, closing, brace_not_mem h]

/-! ### The token at the head of a text -/

theorem untilClosing?_append {name : List Char} (h : '%' ∉ name) (rest : List Char) :
    untilClosing? (name ++ closing ++ rest) = some name := by
  induction name with
  | nil => simp [closing, untilClosing?]
  | cons c name ih =>
    simp only [List.mem_cons, not_or] at h
    have hc : closing.isPrefixOf (c :: (name ++ closing ++ rest)) = false := by
      simp [closing, List.isPrefixOf, h.1]
    simp only [List.cons_append, untilClosing?, hc, ih h.2]
    simp

theorem prefix_of_untilClosing?_eq_some {name text : List Char}
    (h : untilClosing? text = some name) : name ++ closing <+: text := by
  induction text generalizing name with
  | nil => simp [untilClosing?] at h
  | cons c text ih =>
    simp only [untilClosing?] at h
    split at h
    · rename_i hc
      simp only [Option.some.injEq] at h
      simpa [← h] using List.isPrefixOf_iff_prefix.1 hc
    · simp only [Option.map_eq_some_iff] at h
      obtain ⟨name, h, rfl⟩ := h
      simpa using ih h

theorem tokenAtHead?_eq_some_iff {name text : List Char} :
    tokenAtHead? text = some name ↔ isIdentifier name ∧ spelled name <+: text := by
  constructor
  · intro h
    simp only [tokenAtHead?] at h
    split at h
    · rename_i ho
      obtain ⟨text, rfl⟩ := List.isPrefixOf_iff_prefix.1 ho
      obtain ⟨h, hid⟩ := Option.filter_eq_some_iff.1 h
      have := prefix_of_untilClosing?_eq_some h
      refine ⟨hid, ?_⟩
      rw [spelled, List.append_assoc, List.prefix_append_right_inj]
      exact this
    · simp at h
  · rintro ⟨hid, rest, rfl⟩
    have ho : opening.isPrefixOf (spelled name ++ rest) := by simp [spelled, opening]
    have hd : (spelled name ++ rest).drop 2 = name ++ closing ++ rest := by simp [spelled, opening]
    rw [tokenAtHead?, if_pos ho, hd, untilClosing?_append (percent_not_mem hid),
      Option.filter_some, if_pos hid]

theorem tokenAtHead?_spelled {name : List Char} (h : isIdentifier name) (rest : List Char) :
    tokenAtHead? (spelled name ++ rest) = some name :=
  tokenAtHead?_eq_some_iff.2 ⟨h, List.prefix_append _ _⟩

/-- At most one token begins at a place. -/
theorem spelled_prefix_iff {m n rest : List Char} (hm : isIdentifier m) (hn : isIdentifier n) :
    spelled m <+: spelled n ++ rest ↔ m = n := by
  constructor
  · intro h
    have := tokenAtHead?_eq_some_iff.2 ⟨hm, h⟩
    rw [tokenAtHead?_spelled hn] at this
    exact (Option.some.inj this).symm
  · rintro rfl
    exact List.prefix_append _ _

theorem spelled_append_eq_cons (name rest : List Char) :
    spelled name ++ rest = '{' :: ('%' :: name ++ closing ++ rest) := by
  simp [spelled, opening]

/-- Behind the brace a token goes on for three characters more than its name has. -/
theorem drop_spelled_append (name rest : List Char) :
    ('%' :: name ++ closing ++ rest).drop (name.length + 3) = rest := by
  have hlength : ('%' :: name ++ closing).length = name.length + 3 := by simp [closing]
  rw [← hlength, List.drop_left]

/-- A token that begins before a brace ends before it. -/
theorem prefix_of_prefix_append_brace {name a b : List Char} (h : isIdentifier name) (ha : a ≠ [])
    (hp : spelled name <+: a ++ '{' :: b) : spelled name <+: a := by
  cases a with
  | nil => exact absurd rfl ha
  | cons c a =>
    rw [List.cons_append, spelled_prefix_cons_iff] at hp
    rw [spelled_prefix_cons_iff]
    exact ⟨hp.1, Text.prefix_of_prefix_append_cons (brace_not_mem_tail_spelled h) hp.2⟩

theorem tokenAtHead?_append_brace {c : Char} (a b : List Char) :
    tokenAtHead? (c :: a ++ '{' :: b) = tokenAtHead? (c :: a) := by
  refine Option.ext fun name => ?_
  rw [tokenAtHead?_eq_some_iff, tokenAtHead?_eq_some_iff]
  exact and_congr_right fun hid =>
    ⟨prefix_of_prefix_append_brace hid (by simp), fun h => h.trans (List.prefix_append _ _)⟩

/-- To prove something of every text, add a token to it or a character where no token begins. -/
@[elab_as_elim]
theorem token_induction {motive : List Char → Prop} (nil : motive [])
    (token : ∀ name rest, isIdentifier name → motive rest → motive (spelled name ++ rest))
    (char : ∀ c rest, tokenAtHead? (c :: rest) = none → motive rest → motive (c :: rest))
    (text : List Char) : motive text := by
  induction hn : text.length using Nat.strongRecOn generalizing text with
  | ind n ih =>
    cases text with
    | nil => exact nil
    | cons c text =>
      cases h : tokenAtHead? (c :: text) with
      | none => exact char c text h (ih text.length (by simp [← hn]) text rfl)
      | some name =>
        obtain ⟨hid, rest, hrest⟩ := tokenAtHead?_eq_some_iff.1 h
        have hlt : rest.length < n := by
          rw [← hn, ← hrest]
          simp [spelled, opening]
          omega
        rw [← hrest]
        exact token name rest hid (ih rest.length hlt rest rfl)

/-! ### Finding tokens -/

theorem findFrom_eq_drop (skip : Nat) (text : List Char) :
    findFrom skip text = findTokens (text.drop skip) := by
  induction skip generalizing text with
  | zero => rfl
  | succ skip ih =>
    cases text with
    | nil => rfl
    | cons c text => exact ih text

@[simp] theorem findTokens_nil : findTokens [] = [] := rfl

theorem findTokens_of_none {c : Char} {text : List Char} (h : tokenAtHead? (c :: text) = none) :
    findTokens (c :: text) = findTokens text := by
  simp only [findTokens, findFrom, h]

theorem findTokens_spelled {name : List Char} (h : isIdentifier name) (rest : List Char) :
    findTokens (spelled name ++ rest) = name :: findTokens rest := by
  have hhead := tokenAtHead?_spelled h rest
  rw [spelled_append_eq_cons] at hhead ⊢
  rw [findTokens, findFrom, hhead]
  simp only [findFrom_eq_drop, drop_spelled_append]

theorem isIdentifier_of_mem_findTokens {name text : List Char} (h : name ∈ findTokens text) :
    isIdentifier name := by
  induction text using token_induction with
  | nil => simp at h
  | token m rest hid ih =>
    rw [findTokens_spelled hid] at h
    rcases List.mem_cons.1 h with rfl | h
    · exact hid
    · exact ih h
  | char c rest hnone ih => exact ih (findTokens_of_none hnone ▸ h)

/-- A brace divides a text. -/
theorem findTokens_append_brace (a b : List Char) :
    findTokens (a ++ '{' :: b) = findTokens a ++ findTokens ('{' :: b) := by
  induction a using token_induction with
  | nil => rfl
  | token name rest hid ih =>
    rw [List.append_assoc, findTokens_spelled hid, findTokens_spelled hid, ih, List.cons_append]
  | char c rest hnone ih =>
    have h : tokenAtHead? (c :: (rest ++ '{' :: b)) = none :=
      (tokenAtHead?_append_brace rest b).trans hnone
    rw [List.cons_append, findTokens_of_none h, findTokens_of_none hnone, ih]

theorem findTokens_append_spelled {name : List Char} (h : isIdentifier name) (a b : List Char) :
    findTokens (a ++ spelled name ++ b) = findTokens a ++ name :: findTokens b := by
  rw [List.append_assoc, spelled_append_eq_cons, findTokens_append_brace, ← spelled_append_eq_cons,
    findTokens_spelled h]

/-- A name is found exactly where its token stands. -/
theorem mem_findTokens_iff {name text : List Char} :
    name ∈ findTokens text ↔ isIdentifier name ∧ spelled name <:+: text := by
  constructor
  · intro h
    refine ⟨isIdentifier_of_mem_findTokens h, ?_⟩
    induction text using token_induction with
    | nil => simp at h
    | token m rest hid ih =>
      rw [findTokens_spelled hid] at h
      rcases List.mem_cons.1 h with rfl | h
      · exact (List.prefix_append _ _).isInfix
      · exact (ih h).trans (List.suffix_append _ _).isInfix
    | char c rest hnone ih =>
      rw [findTokens_of_none hnone] at h
      exact (ih h).trans (List.suffix_cons c rest).isInfix
  · rintro ⟨hid, a, b, rfl⟩
    rw [findTokens_append_spelled hid]
    simp

/-- To prove something of every text, prove it of those without the token of one name, and put the
token between two texts. -/
@[elab_as_elim]
theorem occurrence_induction (name : List Char)
    {motive : List Char → Prop} (free : ∀ text, name ∉ findTokens text → motive text)
    (between : ∀ a b, motive a → motive b → motive (a ++ spelled name ++ b)) (text : List Char) :
    motive text := by
  induction hn : text.length using Nat.strongRecOn generalizing text with
  | ind n ih =>
    by_cases hmem : name ∈ findTokens text
    · obtain ⟨-, a, b, rfl⟩ := mem_findTokens_iff.1 hmem
      have hpos : 0 < (spelled name).length := by simp [spelled, opening]
      rw [List.length_append, List.length_append] at hn
      exact between a b (ih a.length (by omega) a rfl) (ih b.length (by omega) b rfl)
    · exact free text hmem

/-! ### Replacing tokens -/

/-- Names with their values, as tokens with their values. -/
def spelledPairs (values : List (List Char × List Char)) : List (List Char × List Char) :=
  values.map fun v => (spelled v.1, v.2)

variable {values : List (List Char × List Char)}

theorem replaceTokens_of_tokenAtHead?_eq_none (hv : ∀ v ∈ values, isIdentifier v.1) {c : Char}
    {rest : List Char} (h : tokenAtHead? (c :: rest) = none) :
    replaceTokens (spelledPairs values) (c :: rest) =
      c :: replaceTokens (spelledPairs values) rest := by
  refine Text.replaceTokens_of_none (Text.tokenAtHead?_eq_none_iff.2 fun p hp _ hpre => ?_)
  obtain ⟨v, hv', rfl⟩ := List.mem_map.1 hp
  rw [tokenAtHead?_eq_some_iff.2 ⟨hv v hv', hpre⟩] at h
  simp at h

/-- The scan finds the value of the token that it stands at. -/
theorem tokenAtHead?_spelledPairs (hv : ∀ v ∈ values, isIdentifier v.1) {name : List Char}
    (h : isIdentifier name) (rest : List Char) :
    Text.tokenAtHead? (spelledPairs values) (spelled name ++ rest) =
      (values.lookup name).map (spelled name, ·) := by
  induction values with
  | nil => rfl
  | cons v values ih =>
    obtain ⟨m, value⟩ := v
    have ih := ih fun w hw => hv w (by simp [hw])
    have hiff : (Text.after? (spelled m) (spelled name ++ rest)).isSome ↔ m = name :=
      Text.isSome_after?.trans (spelled_prefix_iff (hv (m, value) (by simp)) h)
    have hne : (spelled m).isEmpty = false := by simp [spelled, opening]
    simp only [Text.tokenAtHead?, spelledPairs] at ih
    simp only [Text.tokenAtHead?, spelledPairs, List.map_cons, List.find?_cons, List.lookup_cons,
      hne, Bool.not_false, Bool.true_and]
    by_cases heq : m = name
    · have hsome := hiff.2 heq
      subst heq
      simp only [hsome, BEq.rfl, Option.map_some]
    · have hbeq : (name == m) = false := by simpa using Ne.symm heq
      have hnone : (Text.after? (spelled m) (spelled name ++ rest)).isSome = false := by
        simpa using fun hs => heq (hiff.1 hs)
      simp only [hbeq, hnone, ih]

/-- A token that has a value is replaced, any other is copied. -/
theorem replaceTokens_spelled (hv : ∀ v ∈ values, isIdentifier v.1) {name : List Char}
    (h : isIdentifier name) (rest : List Char) :
    replaceTokens (spelledPairs values) (spelled name ++ rest) =
      (values.lookup name).getD (spelled name) ++ replaceTokens (spelledPairs values) rest := by
  have hhead := tokenAtHead?_spelledPairs hv h rest
  cases hl : values.lookup name with
  | some value =>
    rw [hl] at hhead
    exact Text.replaceTokens_of_some hhead
  | none =>
    rw [hl] at hhead
    refine Text.replaceTokens_append_of_none fun s hne hs => ?_
    obtain ⟨a, ha⟩ := hs
    cases a with
    | nil => simpa [← ha] using hhead
    | cons d a =>
      -- behind its first character the token has no brace for another one to begin with
      cases s with
      | nil => exact absurd rfl hne
      | cons c s =>
        refine Text.tokenAtHead?_eq_none_iff.2 fun p hp _ hpre => ?_
        obtain ⟨v, -, rfl⟩ := List.mem_map.1 hp
        obtain ⟨hc, -⟩ := spelled_prefix_cons_iff.1 hpre
        refine brace_not_mem_tail_spelled h ?_
        simp [← ha, hc]

theorem replaceTokens_append_spelled (hv : ∀ v ∈ values, isIdentifier v.1) {name : List Char}
    (h : isIdentifier name) (a b : List Char) :
    replaceTokens (spelledPairs values) (a ++ spelled name ++ b) =
      replaceTokens (spelledPairs values) a ++ (values.lookup name).getD (spelled name) ++
        replaceTokens (spelledPairs values) b := by
  induction a using token_induction with
  | nil => exact replaceTokens_spelled hv h b
  | token m rest hid ih =>
    have hassoc : spelled m ++ rest ++ spelled name ++ b =
        spelled m ++ (rest ++ spelled name ++ b) := by simp only [List.append_assoc]
    rw [hassoc, replaceTokens_spelled hv hid, replaceTokens_spelled hv hid, ih]
    simp only [List.append_assoc]
  | char c rest hnone ih =>
    have hc : tokenAtHead? (c :: (rest ++ spelled name ++ b)) = none := by
      rw [List.append_assoc, spelled_append_eq_cons]
      exact (tokenAtHead?_append_brace rest _).trans hnone
    rw [List.cons_append, List.cons_append, replaceTokens_of_tokenAtHead?_eq_none hv hc, ih,
      replaceTokens_of_tokenAtHead?_eq_none hv hnone]
    rfl

/-- A pass over tokens depends on the value of each token alone. -/
theorem replaceTokens_congr {others : List (List Char × List Char)}
    (hv : ∀ v ∈ values, isIdentifier v.1) (hv' : ∀ v ∈ others, isIdentifier v.1)
    (h : ∀ name, values.lookup name = others.lookup name) (text : List Char) :
    replaceTokens (spelledPairs values) text = replaceTokens (spelledPairs others) text := by
  induction text using token_induction with
  | nil => rfl
  | token name rest hid ih => rw [replaceTokens_spelled hv hid, replaceTokens_spelled hv' hid, h, ih]
  | char c rest hnone ih =>
    rw [replaceTokens_of_tokenAtHead?_eq_none hv hnone,
      replaceTokens_of_tokenAtHead?_eq_none hv' hnone, ih]

/-- One token and its value. -/
theorem replaceAll_eq_replaceTokens (name value text : List Char) :
    replaceAll (spelled name) value text = replaceTokens (spelledPairs [(name, value)]) text := rfl

end Scaffold.Template
