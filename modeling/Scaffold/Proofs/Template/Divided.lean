import Mathlib.Data.List.Basic
import Scaffold.Proofs.Template.Forgery
import Scaffold.Proofs.Template.Segment
import Scaffold.Proofs.Text.Plain

/-!
# Texts divided at characters of no token

No token reaches over a character that stands in none. A text is framed if such characters
stand at both of its ends: put into another text it keeps its tokens, and nothing around it
becomes one (`IsFramed.findTokens_replaceAll`).
-/

namespace Scaffold.Template

open Text (replaceAll replaceTokens)

/-- Whether a character stands in no token. -/
def divides (c : Char) : Bool := !continuesIdentifier c && !Text.isMark c

/-- A text that no token reaches into from outside. -/
structure IsFramed (text : List Char) : Prop where
  head : ∃ d, divides d ∧ text.head? = some d
  last : ∃ d, divides d ∧ text.getLast? = some d

theorem IsFramed.of_any {text : List Char}
    (h : (text.head?.any divides && text.getLast?.any divides) = true) : IsFramed text := by
  rw [Bool.and_eq_true, Option.any_eq_true, Option.any_eq_true] at h
  obtain ⟨⟨c, hhead, hc⟩, d, hlast, hd⟩ := h
  exact ⟨⟨c, hc, hhead⟩, ⟨d, hd, hlast⟩⟩

theorem IsFramed.of_lines {text : List Char} (hhead : text.head? = some '\t')
    (hlast : text.getLast? = some '\n') : IsFramed text :=
  ⟨⟨'\t', by decide, hhead⟩, ⟨'\n', by decide, hlast⟩⟩

section
variable {d : Char} (hd : divides d)
include hd

theorem not_mem_spelled {name : List Char} (h : isIdentifier name) : d ∉ spelled name := by
  simp only [divides, Text.isMark, Bool.and_eq_true, Bool.not_eq_true', Bool.or_eq_false_iff,
    beq_eq_false_iff_ne] at hd
  intro hmem
  simp only [spelled, opening, closing, List.mem_append, List.mem_cons, List.not_mem_nil,
    or_false] at hmem
  rcases hmem with ((rfl | rfl) | hname) | rfl | rfl
  · exact hd.2.1.1 rfl
  · exact hd.2.1.2 rfl
  · exact absurd (continuesIdentifier_of_mem h hname) (by simp [hd.1])
  · exact hd.2.1.2 rfl
  · exact hd.2.2 rfl

theorem tokenAtHead?_append_divider (a b : List Char) :
    tokenAtHead? (a ++ d :: b) = tokenAtHead? a := by
  refine Option.ext fun name => ?_
  rw [tokenAtHead?_eq_some_iff, tokenAtHead?_eq_some_iff]
  refine and_congr_right fun hid => ?_
  constructor
  · exact Text.prefix_of_prefix_append_cons (not_mem_spelled hd hid)
  · exact fun h => h.trans (List.prefix_append _ _)

/-- The tokens before a divider and behind it are all there are. -/
theorem findTokens_append_divider (a b : List Char) :
    findTokens (a ++ d :: b) = findTokens a ++ findTokens b := by
  induction a using token_induction with
  | nil =>
    have hnone : tokenAtHead? (d :: b) = none := tokenAtHead?_append_divider hd [] b
    rw [List.nil_append, findTokens_of_none hnone]
    rfl
  | token name rest hid ih =>
    rw [List.append_assoc, findTokens_spelled hid, findTokens_spelled hid, ih, List.cons_append]
  | char c rest hnone ih =>
    have h : tokenAtHead? (c :: (rest ++ d :: b)) = none :=
      (tokenAtHead?_append_divider hd (c :: rest) b).trans hnone
    rw [List.cons_append, findTokens_of_none h, findTokens_of_none hnone, ih]

theorem replaceTokens_append_divider {values : List (List Char × List Char)}
    (hv : ∀ v ∈ values, isIdentifier v.1) (a b : List Char) :
    replaceTokens (spelledPairs values) (a ++ d :: b) =
      replaceTokens (spelledPairs values) a ++ d :: replaceTokens (spelledPairs values) b := by
  refine Text.replaceTokens_append_cons (fun p hp => ?_) a b
  obtain ⟨v, hmem, rfl⟩ := List.mem_map.1 hp
  exact not_mem_spelled hd (hv v hmem)

end

namespace IsFramed

variable {v w : List Char}

theorem append (hv : IsFramed v) (hw : IsFramed w) : IsFramed (v ++ w) where
  head := by
    obtain ⟨d, hd, h⟩ := hv.head
    exact ⟨d, hd, by simp [List.head?_append, h]⟩
  last := by
    obtain ⟨d, hd, h⟩ := hw.last
    exact ⟨d, hd, by simp [List.getLast?_append, h]⟩

theorem findTokens_append_right (hv : IsFramed v) (a : List Char) :
    findTokens (a ++ v) = findTokens a ++ findTokens v := by
  obtain ⟨d, hd, hhead⟩ := hv.head
  obtain ⟨m, rfl⟩ := List.head?_eq_some_iff.1 hhead
  rw [findTokens_append_divider hd, ← List.nil_append (d :: m), findTokens_append_divider hd,
    findTokens_nil, List.nil_append]

theorem findTokens_append_append (hv : IsFramed v) (a b : List Char) :
    findTokens (a ++ v ++ b) = findTokens a ++ findTokens v ++ findTokens b := by
  rw [← hv.findTokens_append_right]
  obtain ⟨d, hd, hlast⟩ := hv.last
  obtain ⟨m, rfl⟩ := List.getLast?_eq_some_iff.1 hlast
  rw [← List.append_assoc a m, List.append_assoc (a ++ m), List.singleton_append,
    findTokens_append_divider hd, findTokens_append_divider hd, findTokens_nil, List.append_nil]

section
variable {values : List (List Char × List Char)} (hvalues : ∀ v ∈ values, isIdentifier v.1)
include hvalues

theorem replaceTokens_append_right (hv : IsFramed v) (a : List Char) :
    replaceTokens (spelledPairs values) (a ++ v) =
      replaceTokens (spelledPairs values) a ++ replaceTokens (spelledPairs values) v := by
  obtain ⟨d, hd, hhead⟩ := hv.head
  obtain ⟨m, rfl⟩ := List.head?_eq_some_iff.1 hhead
  have hself : replaceTokens (spelledPairs values) (d :: m) = _ :=
    replaceTokens_append_divider hd hvalues [] m
  rw [replaceTokens_append_divider hd hvalues, hself]
  rfl

/-- Around a framed text everything is replaced as it is without it. -/
theorem replaceTokens_append_append (hv : IsFramed v) (a b : List Char) :
    replaceTokens (spelledPairs values) (a ++ v ++ b) =
      replaceTokens (spelledPairs values) a ++ replaceTokens (spelledPairs values) v ++
        replaceTokens (spelledPairs values) b := by
  rw [← hv.replaceTokens_append_right hvalues]
  obtain ⟨d, hd, hlast⟩ := hv.last
  obtain ⟨m, rfl⟩ := List.getLast?_eq_some_iff.1 hlast
  have hself : replaceTokens (spelledPairs values) (a ++ m ++ [d]) = _ :=
    replaceTokens_append_divider hd hvalues (a ++ m) []
  rw [← List.append_assoc a m, List.append_assoc (a ++ m), List.singleton_append,
    replaceTokens_append_divider hd hvalues, hself, Text.replaceTokens_nil, List.append_assoc,
    List.singleton_append]

end

/-- A framed text in the place of a token brings its own tokens, and no other comes about or
is lost. -/
theorem findTokens_replaceAll (hv : IsFramed v) {n : List Char} (hn : isIdentifier n)
    (text : List Char) :
    findTokens (replaceAll (spelled n) v text) =
      (findTokens text).flatMap fun name => if name = n then findTokens v else [name] := by
  induction text using occurrence_induction n with
  | between a b iha ihb =>
    rw [replaceAll_append_self hn, hv.findTokens_append_append, findTokens_append_spelled hn, iha, ihb]
    simp
  | free text hmem =>
    have hself : replaceAll (spelled n) v text = text :=
      Text.replaceTokens_eq_self fun p hp _ hinfix => hmem <| by
        obtain rfl := List.mem_singleton.1 hp
        exact mem_findTokens_iff.2 ⟨hn, hinfix⟩
    have hothers : ∀ name ∈ findTokens text,
        (if name = n then findTokens v else [name]) = [name] := by
      intro name hname
      refine if_neg ?_
      rintro rfl
      exact hmem hname
    rw [hself, List.flatMap_congr hothers, List.flatMap_singleton']

end IsFramed

/-! ### Strings in a frame -/

theorem head?_toList_append {s : String} {c : Char} (h : s.toList.head? = some c) (t : String) :
    (s ++ t).toList.head? = some c := by
  rw [String.toList_append, List.head?_append, h, Option.some_or]

theorem getLast?_toList_append {t : String} {c : Char} (h : t.toList.getLast? = some c)
    (s : String) : (s ++ t).toList.getLast? = some c := by
  rw [String.toList_append, List.getLast?_append, h, Option.some_or]

/-! ### Pieces of templates -/

/-- A framed piece of a template stands in it with its tokens filled. -/
theorem filled_infix {t u : Template} (ht : IsFramed t.chars) (h : t.chars <:+: u.chars)
    (value : List Char → List Char) : t.filled value <:+: u.filled value := by
  -- the pairs hold the tokens of both, so that one walk fills either
  let values := (t.names ++ u.names).map fun name => (name, value name)
  have hvalues : ∀ v ∈ values, isIdentifier v.1 := by
    intro v hv
    obtain ⟨name, hname, rfl⟩ := List.mem_map.1 hv
    rcases List.mem_append.1 hname with hname | hname
    · exact isIdentifier_of_mem_findTokens (t.findTokens_chars ▸ hname)
    · exact isIdentifier_of_mem_findTokens (u.findTokens_chars ▸ hname)
  have hfilled (w : Template) (hw : ∀ name ∈ w.names, name ∈ t.names ++ u.names) :
      replaceTokens (spelledPairs values) w.chars = w.filled value := by
    rw [replaceTokens_chars hvalues]
    refine filled_congr fun name hname => ?_
    rw [List.lookup_graph value (hw name hname), Option.getD_some]
  obtain ⟨a, b, hu⟩ := h
  rw [← hfilled t fun name => List.mem_append_left _, ← hfilled u fun name => List.mem_append_right _,
    ← hu, ht.replaceTokens_append_append hvalues]
  exact ⟨_, _, rfl⟩

end Scaffold.Template
