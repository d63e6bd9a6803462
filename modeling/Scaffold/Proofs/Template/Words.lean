import Scaffold.Proofs.Template.Spelling

/-!
# Words replaced in a template

Words are replaced in the text of a template before anything else is done with it. They may leave no
trace where a value is empty, so that a brace could come to stand before a character that was not
behind it. Where no brace stands before the letter that the words begin with, a template stays one
with the same tokens (`Spells.replaceWords`).
-/

namespace Scaffold

namespace Template

open Text (replaceTokens)

/-- Words that begin with one letter and hold no characters of marks, with values without braces. -/
structure Words (first : Char) (pairs : List (List Char × List Char)) : Prop where
  head : ∀ p ∈ pairs, p.1.head? = some first
  plain : ∀ p ∈ pairs, Text.IsPlain p.1
  value : ∀ p ∈ pairs, '{' ∉ p.2

variable {first : Char} {pairs : List (List Char × List Char)}

/-- Whether no brace stands before the given character. -/
def isGuarded (first : Char) : List Char → Bool
  | [] => true
  | c :: text => (c != '{' || text.head? != some first) && isGuarded first text

theorem not_infix_of_isGuarded {text : List Char} (h : isGuarded first text = true) :
    ¬ ['{', first] <:+: text := by
  induction text with
  | nil => simp
  | cons c text ih =>
    simp only [isGuarded, Bool.and_eq_true, Bool.or_eq_true, bne_iff_ne, ne_eq] at h
    rw [List.infix_cons_iff]
    rintro (hp | hi)
    · rw [List.cons_prefix_cons] at hp
      obtain ⟨rfl, rest, rfl⟩ := hp
      exact h.1.elim (· rfl) (· rfl)
    · exact ih h.2 hi

/-- A word stands only where its letter does. -/
theorem Words.tokenAtHead?_eq_none (h : Words first pairs) {d : Char} (hd : d ≠ first)
    (text : List Char) : Text.tokenAtHead? pairs (d :: text) = none := by
  refine Text.tokenAtHead?_eq_none_iff.2 fun p hp hne hpre => hd ?_
  obtain ⟨rest, hrest⟩ := hpre
  have hhead := h.head p hp
  cases hword : p.1 with
  | nil => exact absurd hword hne
  | cons c word =>
    rw [hword] at hhead hrest
    simp only [List.cons_append, List.cons.injEq, List.head?_cons, Option.some.injEq] at hhead hrest
    exact hrest.1.symm.trans hhead

/-- Behind a brace stands what stood there before, so that no opening mark comes about. -/
theorem IsLiteral.replaceWords (h : Words first pairs) {text : List Char} (hl : IsLiteral text)
    (hguard : ¬ ['{', first] <:+: text) : IsLiteral (replaceTokens pairs text) := by
  induction text using Text.replace_induction pairs with
  | nil => exact .nil
  | token token value rest hhead ih =>
    obtain ⟨-, -, hp⟩ := Text.of_tokenAtHead?_eq_some hhead
    have hrest := ih hl.of_append fun hi => hguard (hi.trans (List.suffix_append _ _).isInfix)
    rw [Text.replaceTokens_of_some hhead]
    exact (IsLiteral.of_brace_not_mem (h.value _ hp)).append hrest
  | char c rest hhead ih =>
    have hrest := ih hl.tail fun hi => hguard (hi.trans (List.suffix_cons _ _).isInfix)
    rw [Text.replaceTokens_of_none hhead]
    refine hrest.cons fun hc => ?_
    subst hc
    cases rest with
    | nil => exact absurd rfl hl.2
    | cons d rest =>
      have hd : d ≠ '%' := by
        rintro rfl
        exact hl.1 ⟨[], rest, rfl⟩
      have hfirst : d ≠ first := by
        rintro rfl
        exact hguard ⟨[], rest, rfl⟩
      exact ⟨d, _, Text.replaceTokens_of_none (h.tokenAtHead?_eq_none hfirst rest), hd⟩

/-- No word reaches over the marks of a token. -/
theorem replaceTokens_append_spelled_of_isPlain (h : ∀ p ∈ pairs, Text.IsPlain p.1)
    {name : List Char} (hname : ∀ p ∈ pairs, ¬ p.1 <:+: name) (a b : List Char) :
    replaceTokens pairs (a ++ spelled name ++ b) =
      replaceTokens pairs a ++ spelled name ++ replaceTokens pairs b := by
  have hmark {c : Char} (hc : Text.isMark c = true) : ∀ p ∈ pairs, c ∉ p.1 := by
    intro p hp hmem
    rw [h p hp c hmem] at hc
    simp at hc
  have hmarks (a b : List Char) : a ++ spelled name ++ b =
      a ++ '{' :: ([] ++ '%' :: (name ++ '%' :: ([] ++ '}' :: b))) := by
    simp [spelled, opening, closing]
  have hsame : replaceTokens pairs name = name :=
    Text.replaceTokens_eq_self fun p hp _ => hname p hp
  rw [hmarks, Text.replaceTokens_append_cons (hmark (by decide)),
    Text.replaceTokens_append_cons (hmark (by decide)),
    Text.replaceTokens_append_cons (hmark (by decide)),
    Text.replaceTokens_append_cons (hmark (by decide)), hsame, Text.replaceTokens_nil, hmarks]

/-- Words that are not in the names of its tokens, put into a template whose braces do not stand
before their first letter. -/
theorem Spells.replaceWords {known : List Char → Bool} (h : Words first pairs)
    (hknown : ∀ name, known name → ∀ p ∈ pairs, ¬ p.1 <:+: name) {s : String} (hs : Spells known s)
    (hguard : ¬ ['{', first] <:+: s.toList) :
    Spells known (String.ofList (replaceTokens pairs s.toList)) := by
  obtain ⟨t, rfl, ht⟩ := hs
  rw [toList_text] at hguard ⊢
  obtain ⟨segments, hwf⟩ := t
  simp only [chars, names] at hguard ht ⊢
  -- literals side by side may hold a word together, so that they are gathered up to the next token
  suffices ∀ l, IsLiteral l → ¬ ['{', first] <:+: l ++ segments.flatMap Segment.chars →
      Spells known (String.ofList (replaceTokens pairs (l ++ segments.flatMap Segment.chars))) from
    this [] .nil hguard
  clear hguard
  induction segments with
  | nil =>
    intro l hl hguard
    rw [List.flatMap_nil, List.append_nil] at hguard ⊢
    exact .ofLiteral (by simpa using hl.replaceWords h hguard)
  | cons s segments ih =>
    intro l hl hguard
    have hnames : ∀ name ∈ segments.filterMap Segment.name?, known name := by
      intro name hname
      refine ht name ?_
      rw [List.filterMap_cons]
      split
      · exact hname
      · exact List.mem_cons_of_mem _ hname
    have ih := ih (fun r hr => hwf r (by simp [hr])) hnames
    cases s with
    | literal text =>
      have htext : IsLiteral text := hwf (.literal text) (by simp)
      rw [List.flatMap_cons, Segment.chars, ← List.append_assoc] at hguard ⊢
      exact ih (l ++ text) (hl.append htext) hguard
    | token name =>
      have hid : isIdentifier name := hwf (.token name) (by simp)
      have hname : known name := ht name (by simp [Segment.name?])
      rw [List.flatMap_cons, Segment.chars] at hguard ⊢
      have hl' : IsLiteral (replaceTokens pairs l) :=
        hl.replaceWords h fun hi => hguard (hi.trans (List.prefix_append _ _).isInfix)
      have hrest := ih [] .nil fun hi => hguard <|
        hi.trans ((List.suffix_append _ _).trans (List.suffix_append l _)).isInfix
      have hbefore : Spells known (String.ofList (replaceTokens pairs l)) :=
        .ofLiteral (by simpa using hl')
      have htoken : Spells known (String.ofList (spelled name)) :=
        ⟨ofToken name hid, by simp [text], by simpa using hname⟩
      rw [← List.append_assoc, replaceTokens_append_spelled_of_isPlain h.plain (hknown name hname),
        String.ofList_append, String.ofList_append]
      exact (hbefore.append htoken).append hrest

end Template

end Scaffold
