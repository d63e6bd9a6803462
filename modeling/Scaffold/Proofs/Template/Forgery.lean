import Scaffold.Proofs.Template.Token

/-!
# Tokens that a replacement brings about

A pass that replaces one token may bring about tokens that were not there: the value may hold one,
or complete one with the text around it, or, where it is empty, let two pieces of one meet. `Forges`
says that this happens. After a pass a text has the tokens that it had before, but the one replaced,
and those that are forged (`mem_findTokens_replaceAll_iff`); no other way leads to a token.
-/

namespace Scaffold.Template

open Text (replaceTokens replaceAll)

/-- With `value` in the place of an `n`, a token `name` comes about that has a part of the value in
it, or that reaches over the place. -/
def Forges (n value text name : List Char) : Prop :=
  isIdentifier name ∧ ∃ a b before behind, text = a ++ spelled n ++ b ∧
    replaceAll (spelled n) value a ++ value ++ replaceAll (spelled n) value b =
      before ++ spelled name ++ behind ∧
    before.length < (replaceAll (spelled n) value a ++ value).length ∧
    (replaceAll (spelled n) value a).length < (before ++ spelled name).length

/-- In the new text a place that a value is put in touches the token that stands behind `before`. -/
def Touches (n value text before name : List Char) : Prop :=
  ∃ a b, text = a ++ spelled n ++ b ∧
    before.length < (replaceAll (spelled n) value a ++ value).length ∧
    (replaceAll (spelled n) value a).length < (before ++ spelled name).length

/-- A stretch before the text that becomes another one moves the token and the place alike. -/
theorem Touches.shift {n value text before name s s' : List Char}
    (hs : ∀ a b, text = a ++ spelled n ++ b →
      replaceAll (spelled n) value (s ++ a) = s' ++ replaceAll (spelled n) value a)
    (h : Touches n value text before name) :
    Touches n value (s ++ text) (s' ++ before) name := by
  obtain ⟨a, b, rfl, hlt, hlt'⟩ := h
  have hmoved := hs a b rfl
  refine ⟨s ++ a, b, by simp only [List.append_assoc], ?_, ?_⟩
  · rw [hmoved]
    simp only [List.length_append] at hlt ⊢
    omega
  · rw [hmoved]
    simp only [List.length_append] at hlt' ⊢
    omega

theorem exists_of_append_eq_append {a b c d : List Char} (h : a ++ b = c ++ d)
    (hle : a.length ≤ c.length) : ∃ c', c = a ++ c' ∧ b = c' ++ d := by
  obtain ⟨c', rfl⟩ := List.prefix_of_prefix_length_le ⟨b, h⟩ (List.prefix_append c d) hle
  rw [List.append_assoc, List.append_cancel_left_eq] at h
  exact ⟨c', rfl, h⟩

/-- A token that begins inside of a stretch puts a brace there, behind its first character. -/
theorem brace_mem_of_append_eq {c : Char} {a b before rest : List Char}
    (h : a ++ b = c :: before ++ rest) (hrest : rest.head? = some '{')
    (hlt : (c :: before).length < a.length) : '{' ∈ a.tail := by
  obtain ⟨a', rfl, rfl⟩ := exists_of_append_eq_append h.symm (Nat.le_of_lt hlt)
  cases a' with
  | nil => simp at hlt
  | cons d a' =>
    simp only [List.cons_append, List.head?_cons, Option.some.injEq] at hrest
    simp [hrest]

section
variable {n value : List Char} (hn : isIdentifier n)
include hn

theorem replaceAll_append_self (a b : List Char) :
    replaceAll (spelled n) value (a ++ spelled n ++ b) =
      replaceAll (spelled n) value a ++ value ++ replaceAll (spelled n) value b := by
  have h : replaceTokens (spelledPairs [(n, value)]) (a ++ spelled n ++ b) = _ :=
    replaceTokens_append_spelled (by simpa using hn) hn a b
  simpa [replaceAll_eq_replaceTokens] using h

theorem replaceAll_append_of_ne {m : List Char} (hm : isIdentifier m) (hne : m ≠ n)
    (a b : List Char) :
    replaceAll (spelled n) value (a ++ spelled m ++ b) =
      replaceAll (spelled n) value a ++ spelled m ++ replaceAll (spelled n) value b := by
  have h : replaceTokens (spelledPairs [(n, value)]) (a ++ spelled m ++ b) = _ :=
    replaceTokens_append_spelled (by simpa using hn) hm a b
  have hbeq : (m == n) = false := by simpa using hne
  simpa [replaceAll_eq_replaceTokens, List.lookup_cons, hbeq] using h

theorem replaceAll_cons {c : Char} {rest : List Char} (h : tokenAtHead? (c :: rest) = none) :
    replaceAll (spelled n) value (c :: rest) = c :: replaceAll (spelled n) value rest := by
  have hv : ∀ v ∈ [(n, value)], isIdentifier v.1 := by simpa using hn
  exact replaceTokens_of_tokenAtHead?_eq_none hv h

/-- What stands before a token is replaced by itself, also where the character before it begins
none. -/
theorem replaceAll_cons_of_append_spelled {c : Char} {a b m : List Char}
    (h : tokenAtHead? (c :: (a ++ spelled m ++ b)) = none) :
    replaceAll (spelled n) value (c :: a) = c :: replaceAll (spelled n) value a := by
  have hs : a ++ spelled m ++ b = a ++ '{' :: ('%' :: m ++ closing ++ b) := by
    simp [spelled, opening]
  refine replaceAll_cons hn ?_
  rw [hs] at h
  exact (tokenAtHead?_append_brace a _).symm.trans h

/-- A stretch without braces at the head of the new text was there before, up to the first place
that a value is put in. -/
theorem prefix_or_of_prefix_replaceAll {s text : List Char} (hs : '{' ∉ s)
    (h : s <+: replaceAll (spelled n) value text) :
    s <+: text ∨ ∃ a b, text = a ++ spelled n ++ b ∧
      (replaceAll (spelled n) value a).length < s.length := by
  induction text using token_induction generalizing s with
  | nil => exact .inl h
  | token m rest hm ih =>
    cases s with
    | nil => exact .inl List.nil_prefix
    | cons c s =>
      by_cases hmn : m = n
      · subst hmn
        exact .inr ⟨[], rest, rfl, by simp [replaceAll]⟩
      · have hrest : replaceAll (spelled n) value (spelled m ++ rest) =
            spelled m ++ replaceAll (spelled n) value rest :=
          replaceAll_append_of_ne hn hm hmn [] rest
        rw [hrest] at h
        simp only [spelled, opening, List.cons_append, List.cons_prefix_cons] at h
        exact absurd (by simp [h.1]) hs
  | char c rest hnone ih =>
    cases s with
    | nil => exact .inl List.nil_prefix
    | cons d s =>
      rw [replaceAll_cons hn hnone, List.cons_prefix_cons] at h
      obtain ⟨rfl, h⟩ := h
      simp only [List.mem_cons, not_or] at hs
      rcases ih hs.2 h with hp | ⟨a, b, rfl, hlt⟩
      · exact .inl (List.cons_prefix_cons.2 ⟨rfl, hp⟩)
      · refine .inr ⟨d :: a, b, rfl, ?_⟩
        rw [replaceAll_cons_of_append_spelled hn hnone, List.length_cons, List.length_cons]
        omega

/-- Where a token stands at the head of the new text and none stood there before, a place that a
value is put in touches it. -/
theorem touches_at_head {c : Char} {rest name : List Char} (hname : isIdentifier name)
    (hnone : tokenAtHead? (c :: rest) = none)
    (h : spelled name <+: c :: replaceAll (spelled n) value rest) :
    Touches n value (c :: rest) [] name := by
  obtain ⟨rfl, htail⟩ := spelled_prefix_cons_iff.1 h
  rcases prefix_or_of_prefix_replaceAll hn (brace_not_mem_tail_spelled hname) htail
    with hp | ⟨a, b, rfl, hlt⟩
  · have hhead : spelled name <+: '{' :: rest := spelled_prefix_cons_iff.2 ⟨rfl, hp⟩
    rw [tokenAtHead?_eq_some_iff.2 ⟨hname, hhead⟩] at hnone
    simp at hnone
  · refine ⟨'{' :: a, b, rfl, ?_, ?_⟩ <;> rw [replaceAll_cons_of_append_spelled hn hnone] <;>
      simp only [List.length_append, List.length_cons, List.length_nil, List.length_tail] at * <;>
      omega

/-- A token of the new text was there before, or a place that a value is put in touches it. -/
theorem infix_or_touches {name text before behind : List Char} (hname : isIdentifier name)
    (h : replaceAll (spelled n) value text = before ++ (spelled name ++ behind)) :
    (name ≠ n ∧ spelled name <:+: text) ∨ Touches n value text before name := by
  have hpos : 0 < (spelled name).length := by simp [spelled, opening]
  induction text using token_induction generalizing before with
  | nil => simp [replaceAll, spelled, opening] at h
  | token m rest hm ih =>
    by_cases hmn : m = n
    · subst hmn
      have hself (a : List Char) : replaceAll (spelled m) value (spelled m ++ a) =
          value ++ replaceAll (spelled m) value a := replaceAll_append_self hn [] a
      rw [hself] at h
      rcases Nat.lt_or_ge before.length value.length with hlt | hge
      · refine .inr ⟨[], rest, rfl, ?_, ?_⟩
        · simpa [replaceAll] using hlt
        · simp only [replaceAll, Text.replaceTokens_nil, List.length_nil, List.length_append]
          omega
      · obtain ⟨before', rfl, h'⟩ := exists_of_append_eq_append h hge
        rcases ih h' with ⟨hne, hi⟩ | htouches
        · exact .inl ⟨hne, hi.trans (List.suffix_append _ _).isInfix⟩
        · exact .inr (htouches.shift fun a _ _ => hself a)
    · have hcopied (a : List Char) : replaceAll (spelled n) value (spelled m ++ a) =
          spelled m ++ replaceAll (spelled n) value a := replaceAll_append_of_ne hn hm hmn [] a
      rw [hcopied] at h
      rcases Nat.lt_or_ge before.length (spelled m).length with hlt | hge
      · cases before with
        | nil =>
          have heq : name = m := (spelled_prefix_iff hname hm).1 ⟨behind, h.symm⟩
          exact .inl ⟨heq ▸ hmn, heq ▸ (List.prefix_append _ _).isInfix⟩
        | cons c before =>
          -- a token that began inside of a copied one would put a brace there
          exact absurd (brace_mem_of_append_eq h rfl hlt) (brace_not_mem_tail_spelled hm)
      · obtain ⟨before', rfl, h'⟩ := exists_of_append_eq_append h hge
        rcases ih h' with ⟨hne, hi⟩ | htouches
        · exact .inl ⟨hne, hi.trans (List.suffix_append _ _).isInfix⟩
        · exact .inr (htouches.shift fun a _ _ => hcopied a)
  | char c rest hnone ih =>
    rw [replaceAll_cons hn hnone] at h
    cases before with
    | nil => exact .inr (touches_at_head hn hname hnone ⟨behind, h.symm⟩)
    | cons d before =>
      rw [List.cons_append, List.cons.injEq] at h
      obtain ⟨rfl, h⟩ := h
      rcases ih h with ⟨hne, hi⟩ | htouches
      · exact .inl ⟨hne, hi.trans (List.suffix_cons _ _).isInfix⟩
      · have hkept : ∀ a b, rest = a ++ spelled n ++ b →
            replaceAll (spelled n) value ([c] ++ a) = [c] ++ replaceAll (spelled n) value a := by
          rintro a b rfl
          exact replaceAll_cons_of_append_spelled hn hnone
        exact .inr (htouches.shift hkept)

/-- The tokens after a pass: those that were there, but the one replaced, and those forged. -/
theorem mem_findTokens_replaceAll_iff {name text : List Char} :
    name ∈ findTokens (replaceAll (spelled n) value text) ↔
      (name ∈ findTokens text ∧ name ≠ n) ∨ Forges n value text name := by
  constructor
  · intro h
    obtain ⟨hname, before, behind, h⟩ := mem_findTokens_iff.1 h
    rw [List.append_assoc] at h
    rcases infix_or_touches hn hname h.symm with ⟨hne, hi⟩ | ⟨a, b, rfl, hlt, hlt'⟩
    · exact .inl ⟨mem_findTokens_iff.2 ⟨hname, hi⟩, hne⟩
    · refine .inr ⟨hname, a, b, before, behind, rfl, ?_, hlt, hlt'⟩
      rw [← replaceAll_append_self hn, ← h, List.append_assoc]
  · rintro (⟨h, hne⟩ | ⟨hname, a, b, before, behind, rfl, h, -, -⟩)
    · obtain ⟨hname, a, b, rfl⟩ := mem_findTokens_iff.1 h
      refine mem_findTokens_iff.2 ⟨hname, replaceAll (spelled n) value a,
        replaceAll (spelled n) value b, ?_⟩
      rw [replaceAll_append_of_ne hn hname hne]
    · refine mem_findTokens_iff.2 ⟨hname, before, behind, ?_⟩
      rw [replaceAll_append_self hn, h]

end

end Scaffold.Template
