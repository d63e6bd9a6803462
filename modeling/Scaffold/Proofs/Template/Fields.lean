import Scaffold.Proofs.Template.Divided
import Scaffold.Proofs.Text.Occurrence

/-!
# Pieces counted field by field

To count a piece in a filled template, its text is cut into fields at characters that neither the
piece nor a token holds (`occurrences_replaceTokens`). Most fields can be left out by what they
are made of (`occurrences_eq_of_concerns`): a character that the piece holds does not stand in
the field, nor in a value that is put into it, or the field has no tokens and a fixed part of the
piece is missing.
-/

namespace Scaffold.Template

open Text (replaceTokens occurrences occurrencesIn)

/-- The characters at which a text is cut, where a piece is searched that holds the given ones
besides those of words. -/
def cuts (kept : List Char) (c : Char) : Bool := divides c && !kept.contains c

theorem cuts_eq_false {kept : List Char} {c : Char} (h : continuesIdentifier c ∨ c ∈ kept) :
    cuts kept c = false := by
  rcases h with h | h <;> simp [cuts, divides, h]

/-- The pieces of a text between the cuts. -/
def fields (kept text : List Char) : List (List Char) := text.splitOnP (cuts kept)

/-- Whether a character may come to stand in a field, if it stands in the values of the given tokens
only. -/
def mayHold (c : Char) (holders : List (List Char)) (field : List Char) : Bool :=
  field.contains c || (findTokens field).any holders.contains

/-- What is known of a piece. -/
structure Trace where
  /-- Characters of the piece, with the tokens that may bring them. -/
  chars : List (Char × List (List Char))
  /-- A part of the piece. -/
  part : List Char

/-- Whether a field may hold a piece, as far as its trace tells. -/
def Trace.concerns (trace : Trace) (field : List Char) : Bool :=
  (trace.chars.all fun c => mayHold c.1 c.2 field) &&
    (!(findTokens field).isEmpty || occurrences trace.part field != 0)

variable {values : List (List Char × List Char)}

/-- A trace that a piece leaves, where the tokens have the given values. -/
structure Trace.Fits (trace : Trace) (values : List (List Char × List Char)) (piece : List Char) :
    Prop where
  mem : ∀ c ∈ trace.chars, c.1 ∈ piece
  holders : ∀ c ∈ trace.chars, ∀ v ∈ values, c.1 ∈ v.2 → v.1 ∈ c.2
  part : trace.part <:+: piece

/-- A character of a text with its tokens replaced comes from the text or from a value. -/
theorem mem_replaceTokens {pairs : List (List Char × List Char)} {c : Char} {text : List Char}
    (h : c ∈ replaceTokens pairs text) : c ∈ text ∨ ∃ p ∈ pairs, p.1 <:+: text ∧ c ∈ p.2 := by
  induction text using Text.replace_induction pairs with
  | nil => simp at h
  | token token value rest hhead ih =>
    rw [Text.replaceTokens_of_some hhead] at h
    rcases List.mem_append.1 h with h | h
    · obtain ⟨-, -, hmem⟩ := Text.of_tokenAtHead?_eq_some hhead
      exact .inr ⟨_, hmem, (List.prefix_append _ _).isInfix, h⟩
    · refine (ih h).imp (List.mem_append_right _) fun ⟨p, hp, hstands, hc⟩ => ⟨p, hp, ?_, hc⟩
      exact hstands.trans (List.suffix_append _ _).isInfix
  | char d rest hhead ih =>
    rw [Text.replaceTokens_of_none hhead] at h
    rcases List.mem_cons.1 h with rfl | h
    · exact .inl List.mem_cons_self
    · refine (ih h).imp (List.mem_cons_of_mem _) fun ⟨p, hp, hstands, hc⟩ => ⟨p, hp, ?_, hc⟩
      exact hstands.trans (List.suffix_cons _ _).isInfix

section
variable (hvalues : ∀ v ∈ values, isIdentifier v.1)
include hvalues

theorem not_mem_replaceTokens {c : Char} {holders : List (List Char)}
    (hholders : ∀ v ∈ values, c ∈ v.2 → v.1 ∈ holders) {field : List Char}
    (h : mayHold c holders field = false) : c ∉ replaceTokens (spelledPairs values) field := by
  rw [mayHold, Bool.or_eq_false_iff] at h
  intro hmem
  rcases mem_replaceTokens hmem with hfield | ⟨p, hp, hstands, hc⟩
  · simp [hfield] at h
  · obtain ⟨v, hv, rfl⟩ := List.mem_map.1 hp
    have htoken : v.1 ∈ findTokens field := mem_findTokens_iff.2 ⟨hvalues v hv, hstands⟩
    have hany := List.any_eq_false.1 h.2 _ htoken
    simp [hholders v hv hc] at hany

theorem replaceTokens_of_findTokens_eq_nil {text : List Char} (h : findTokens text = []) :
    replaceTokens (spelledPairs values) text = text := by
  refine Text.replaceTokens_eq_self fun p hp _ hstands => ?_
  obtain ⟨v, hv, rfl⟩ := List.mem_map.1 hp
  simpa [h] using mem_findTokens_iff.2 ⟨hvalues v hv, hstands⟩

/-- A field that does not concern a piece does not hold it. -/
theorem Trace.Fits.occurrences_eq_zero {trace : Trace} {piece : List Char}
    (hfits : trace.Fits values piece) {field : List Char} (h : trace.concerns field = false) :
    occurrences piece (replaceTokens (spelledPairs values) field) = 0 := by
  rw [Trace.concerns, Bool.and_eq_false_iff] at h
  rcases h with h | h
  · obtain ⟨c, hc, hlacks⟩ := List.all_eq_false.1 h
    exact Text.occurrences_eq_zero_of_not_mem (hfits.mem c hc)
      (not_mem_replaceTokens hvalues (hfits.holders c hc) (by simpa using hlacks))
  · rw [Bool.or_eq_false_iff] at h
    rw [replaceTokens_of_findTokens_eq_nil hvalues (by simpa using h.1)]
    have hpart : occurrences trace.part field = 0 := by simpa using h.2
    exact Text.occurrences_eq_zero_of_not_infix hfits.part (Text.occurrences_eq_zero_iff.1 hpart)

/-- A piece stands in a filled text as often as in its fields. -/
theorem occurrences_replaceTokens {kept piece : List Char} (hpiece : ∀ c ∈ piece, cuts kept c = false)
    (text : List Char) :
    occurrences piece (replaceTokens (spelledPairs values) text) =
      occurrencesIn piece ((fields kept text).map (replaceTokens (spelledPairs values))) := by
  induction hn : text.length using Nat.strongRecOn generalizing text with
  | ind n ih =>
    by_cases hcut : ∃ d ∈ text, cuts kept d
    · obtain ⟨d, hd, hcut⟩ := hcut
      obtain ⟨a, b, rfl⟩ := List.append_of_mem hd
      rw [List.length_append, List.length_cons] at hn
      have hdivides : divides d := (Bool.and_eq_true_iff.1 hcut).1
      have hmem : d ∉ piece := fun hmem => by simp [hpiece d hmem] at hcut
      rw [replaceTokens_append_divider hdivides hvalues, Text.occurrences_append_cons hmem, fields,
        List.splitOnP_append_cons _ _ hcut, List.map_append, Text.occurrencesIn_append,
        ih a.length (by omega) a rfl, ih b.length (by omega) b rfl]
      rfl
    · have hnone : ∀ c ∈ text, cuts kept c = false := by simpa using hcut
      rw [fields, List.splitOnP_eq_singleton hnone]
      rfl

/-- The fields that concern a piece are enough to count it. -/
theorem occurrences_eq_of_concerns {trace : Trace} {kept piece : List Char}
    (hpiece : ∀ c ∈ piece, cuts kept c = false) (hfits : trace.Fits values piece) (text : List Char) :
    occurrences piece (replaceTokens (spelledPairs values) text) =
      occurrencesIn piece
        (((fields kept text).filter trace.concerns).map (replaceTokens (spelledPairs values))) := by
  rw [occurrences_replaceTokens hvalues hpiece]
  induction fields kept text with
  | nil => rfl
  | cons field rest ih =>
    rw [List.map_cons, occurrencesIn, ih]
    cases hconcerns : trace.concerns field with
    | true => rw [List.filter_cons_of_pos hconcerns, List.map_cons, occurrencesIn]
    | false =>
      rw [List.filter_cons_of_neg (by simp [hconcerns]),
        hfits.occurrences_eq_zero hvalues hconcerns, Nat.zero_add]

end

end Scaffold.Template
