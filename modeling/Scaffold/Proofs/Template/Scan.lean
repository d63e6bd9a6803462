import Scaffold.Proofs.Template.Rendering

/-!
# The places of tokens

The scan for tokens goes from mark to mark: it looks for a name between an opening mark and
the next closing one, and where there is none it goes on right behind the opening mark
(`findTokens_opening_append`). No token begins inside another one, and so none is passed
over: the scan finds the name of a token at every place where one stands, from left to
right (`tokenNames_exact`).
-/

namespace Scaffold

namespace Template

/-! ### From mark to mark -/

/-- Before the first opening mark there is nothing to find. -/
theorem findTokens_append_opening {front : List Char} (h : ¬ opening <:+: front) (text : List Char) :
    findTokens (front ++ opening ++ text) = findTokens (opening ++ text) := by
  have hnil : findTokens front = [] := by
    rw [List.eq_nil_iff_forall_not_mem]
    intro name hname
    apply h
    obtain ⟨-, hinfix⟩ := mem_findTokens_iff.1 hname
    rw [spelled, List.append_assoc] at hinfix
    exact (List.prefix_append _ _).isInfix.trans hinfix
  have hbrace : opening ++ text = '{' :: '%' :: text := rfl
  rw [List.append_assoc, hbrace, findTokens_append_brace, hnil, List.nil_append]

/-- At an opening mark: the name up to the next closing mark, if it is one, else whatever the scan
finds behind the opening mark. -/
theorem findTokens_opening_append (text : List Char) :
    findTokens (opening ++ text) =
      match (untilClosing? text).filter isIdentifier with
      | some name => name :: findTokens (text.drop (name.length + 2))
      | none => findTokens text := by
  have hhead : tokenAtHead? (opening ++ text) = (untilClosing? text).filter isIdentifier := by
    simp [tokenAtHead?, opening]
  cases h : (untilClosing? text).filter isIdentifier with
  | some name =>
    obtain ⟨hid, rest, hrest⟩ := tokenAtHead?_eq_some_iff.1 (hhead.trans h)
    have htext : text = name ++ closing ++ rest := by
      rw [spelled, List.append_assoc, List.append_assoc, List.append_cancel_left_eq] at hrest
      rw [← hrest, List.append_assoc]
    have hdrop : text.drop (name.length + 2) = rest := by
      rw [htext, List.drop_left' (by simp [closing])]
    simp only [hdrop]
    rw [← hrest, findTokens_spelled hid]
  | none =>
    have hmore : tokenAtHead? ('%' :: text) = none := by simp [tokenAtHead?, opening, List.isPrefixOf]
    have hopening : opening ++ text = '{' :: '%' :: text := rfl
    rw [hopening] at hhead ⊢
    rw [findTokens_of_none (hhead.trans h), findTokens_of_none hmore]

/-! ### Place by place -/

/-- The places of a text where tokens stand, with the names of the tokens. -/
def tokenPlaces (text : List Char) : List (Nat × List Char) :=
  (List.range text.length).filterMap fun i => (tokenAtHead? (text.drop i)).map (i, ·)

theorem pairwise_tokenPlaces (text : List Char) :
    (tokenPlaces text).Pairwise fun a b => a.1 < b.1 := by
  rw [tokenPlaces, List.pairwise_filterMap]
  refine List.pairwise_lt_range.imp fun {i j} hij a ha b hb => ?_
  obtain ⟨-, -, rfl⟩ := Option.map_eq_some_iff.1 ha
  obtain ⟨-, -, rfl⟩ := Option.map_eq_some_iff.1 hb
  exact hij

theorem mem_tokenPlaces_iff {text name : List Char} {i : Nat} :
    (i, name) ∈ tokenPlaces text ↔ isIdentifier name ∧ spelled name <+: text.drop i := by
  rw [← tokenAtHead?_eq_some_iff, tokenPlaces, List.mem_filterMap]
  constructor
  · rintro ⟨j, -, h⟩
    obtain ⟨n, hn, heq⟩ := Option.map_eq_some_iff.1 h
    cases heq
    exact hn
  · intro h
    refine ⟨i, List.mem_range.2 ?_, by rw [h, Option.map_some]⟩
    by_contra hlength
    rw [List.drop_eq_nil_of_le (Nat.le_of_not_lt hlength)] at h
    cases h

/-- No token begins inside another one. -/
theorem tokenAtHead?_drop_spelled {name : List Char} (h : isIdentifier name) (rest : List Char)
    {i : Nat} (hi : i + 1 < (spelled name).length) :
    tokenAtHead? ((spelled name ++ rest).drop (i + 1)) = none := by
  rw [Option.eq_none_iff_forall_ne_some]
  intro other hother
  obtain ⟨-, hstands⟩ := tokenAtHead?_eq_some_iff.1 hother
  have hmem : (spelled name)[i + 1] ∈ (spelled name).tail := by
    rw [← List.drop_one]
    exact List.mem_drop_iff_getElem.2 ⟨i, by omega, by simp [Nat.add_comm]⟩
  rw [List.drop_append_of_le_length (Nat.le_of_lt hi), List.drop_eq_getElem_cons hi,
    List.cons_append, spelled_prefix_cons_iff] at hstands
  rw [hstands.1] at hmem
  exact brace_not_mem_tail_spelled h hmem

theorem map_snd_tokenPlaces (text : List Char) :
    (tokenPlaces text).map (·.2) = findTokens text := by
  have hmap (text : List Char) : (tokenPlaces text).map (·.2) =
      (List.range text.length).filterMap fun i => tokenAtHead? (text.drop i) := by
    simp [tokenPlaces, List.map_filterMap, Function.comp_def]
  rw [hmap]
  induction text using token_induction with
  | nil => rfl
  | token name rest hid ih =>
    have hlength : (spelled name).length = name.length + 3 + 1 := by
      simp [spelled, opening, closing]
    have hinside : (List.range (name.length + 3)).filterMap
        (fun i => tokenAtHead? ((spelled name ++ rest).drop (i + 1))) = [] := by
      rw [List.filterMap_eq_nil_iff]
      intro i hi
      have hlt := List.mem_range.1 hi
      exact tokenAtHead?_drop_spelled hid rest (by omega)
    have hbehind : ∀ i, (spelled name ++ rest).drop ((spelled name).length + i) = rest.drop i := by
      intro i
      rw [← List.drop_drop, List.drop_left]
    rw [List.length_append, List.range_add, List.filterMap_append, List.filterMap_map]
    simp only [Function.comp_def, hbehind]
    rw [ih, hlength, List.range_succ_eq_map, List.filterMap_cons, List.drop_zero,
      tokenAtHead?_spelled hid, List.filterMap_map, findTokens_spelled hid]
    simp only [Function.comp_def, Nat.succ_eq_add_one, hinside, List.cons_append, List.nil_append]
  | char c rest hnone ih =>
    rw [List.length_cons, List.range_succ_eq_map, List.filterMap_cons, List.drop_zero, hnone,
      List.filterMap_map, findTokens_of_none hnone, ← ih]
    rfl

end Template

/-- The names of the tokens of a text, one for each place where a token stands, from left
to right. -/
theorem tokenNames_exact (text : String) : ∃ places : List (Nat × String),
    places.Pairwise (fun a b => a.1 < b.1) ∧
      (∀ i name, (i, name) ∈ places ↔ Template.isIdentifier name.toList ∧
        (Template.delimited name).toList <+: text.toList.drop i) ∧
      tokenNames text = places.map (·.2) := by
  refine ⟨(Template.tokenPlaces text.toList).map fun place => (place.1, String.ofList place.2),
    ?_, ?_, ?_⟩
  · rw [List.pairwise_map]
    exact Template.pairwise_tokenPlaces text.toList
  · intro i name
    rw [Template.toList_delimited, ← Template.mem_tokenPlaces_iff, List.mem_map]
    constructor
    · rintro ⟨⟨j, n⟩, hplace, heq⟩
      cases heq
      rwa [String.toList_ofList]
    · intro hplace
      exact ⟨_, hplace, by rw [String.ofList_toList]⟩
  · rw [tokenNames, ← Template.map_snd_tokenPlaces, List.map_map, List.map_map]
    rfl

end Scaffold
