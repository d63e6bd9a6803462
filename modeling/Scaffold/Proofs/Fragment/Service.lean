import Mathlib.Data.List.Count
import Scaffold.Proofs.Fragment.Spelling
import Scaffold.Proofs.Text.Occurrence

/-!
# Services of parents, counted

How often the name of a service stands in quotes among names in quotes (`occurrences_dependencies`),
and how often the head of a fetch function stands in such functions (`occurrences_fetchFunctions`),
for names that are made of letters, digits and underscores.
-/

namespace Scaffold

open Text (occurrences occurrencesIn)
open Template (continuesIdentifier)

/-! ### Words -/

/-- A string of letters, digits and underscores of ASCII. -/
def IsWordName (name : String) : Prop := ∀ c ∈ name.toList, continuesIdentifier c

instance : DecidablePred IsWordName := fun name =>
  decidable_of_iff (name.toList.all continuesIdentifier) List.all_eq_true

theorem isAscii_of_continuesIdentifier {c : Char} (h : continuesIdentifier c) : Text.isAscii c := by
  unfold continuesIdentifier Char.isAlphanum Char.isAlpha Char.isUpper Char.isLower Char.isDigit at h
  simp only [Bool.or_eq_true, Bool.and_eq_true, decide_eq_true_eq, beq_iff_eq, ge_iff_le,
    UInt32.le_iff_toNat_le] at h
  simp only [Text.isAscii, decide_eq_true_eq, Char.toNat]
  rcases h with ((⟨-, h⟩ | ⟨-, h⟩) | ⟨-, h⟩) | rfl
  · exact Nat.lt_of_le_of_lt h (by decide)
  · exact Nat.lt_of_le_of_lt h (by decide)
  · exact Nat.lt_of_le_of_lt h (by decide)
  · decide

theorem continuesIdentifier_toUpper {c : Char} (h : continuesIdentifier c) :
    continuesIdentifier c.toUpper := by
  have hall := Text.of_isAscii (p := fun c => !continuesIdentifier c || continuesIdentifier c.toUpper)
    (by decide) (isAscii_of_continuesIdentifier h)
  simpa [h] using hall

namespace IsWordName

variable {name : String} (h : IsWordName name)
include h

theorem not_mem {c : Char} (hc : continuesIdentifier c = false) : c ∉ name.toList :=
  fun hmem => by simp [h c hmem] at hc

theorem isPlain : IsPlainName name := by
  intro c hc
  by_contra hmark
  have hcode := h c hc
  simp only [Text.isMark, Bool.not_eq_false, Bool.or_eq_true, beq_iff_eq] at hmark
  rcases hmark with (rfl | rfl) | rfl <;> exact absurd hcode (by decide)

theorem append {t : String} (ht : IsWordName t) : IsWordName (name ++ t) := by
  intro c hc
  rw [String.toList_append, List.mem_append] at hc
  exact hc.elim (h c) (ht c)

theorem capitalized : IsWordName (capitalized name) := by
  rw [IsWordName] at h
  rw [IsWordName, Scaffold.capitalized, String.toList_ofList]
  cases hchars : name.toList with
  | nil => simp [Text.capitalize]
  | cons c rest =>
    rw [hchars] at h
    have hc := h c (by simp)
    intro d hd
    rw [Text.capitalize, Text.upper, if_pos (isAscii_of_continuesIdentifier hc), List.singleton_append,
      List.mem_cons] at hd
    rcases hd with rfl | hd
    · exact continuesIdentifier_toUpper hc
    · exact h d (by simp [hd])

end IsWordName

/-! ### Strings of words and signs -/

/-- A string of characters of words and of the given signs. -/
def IsMadeOf (signs : List Char) (s : String) : Prop := ∀ c ∈ s.toList, continuesIdentifier c ∨ c ∈ signs

namespace IsMadeOf

variable {signs : List Char} {s t : String}

theorem word (h : IsWordName s) : IsMadeOf signs s := fun c hc => .inl (h c hc)

theorem literal (h : (s.toList.all fun c => continuesIdentifier c || signs.contains c) = true) :
    IsMadeOf signs s := by
  simpa [IsMadeOf] using h

theorem append (hs : IsMadeOf signs s) (ht : IsMadeOf signs t) : IsMadeOf signs (s ++ t) := by
  intro c hc
  rw [String.toList_append, List.mem_append] at hc
  exact hc.elim (hs c) (ht c)

theorem join {strings : List String} (h : ∀ s ∈ strings, IsMadeOf signs s) :
    IsMadeOf signs (String.join strings) := by
  intro c hc
  rw [String.toList_join, List.mem_flatMap] at hc
  obtain ⟨s, hs, hc⟩ := hc
  exact h s hs c hc

theorem not_mem (h : IsMadeOf signs s) {c : Char} (hc : continuesIdentifier c = false)
    (hsigns : c ∉ signs) : c ∉ s.toList := by
  intro hmem
  rcases h c hmem with hword | hsign
  · simp [hword] at hc
  · exact hsigns hsign

end IsMadeOf

namespace Fragment

/-- The signs of fetch functions. -/
def fetchSigns : List Char := ['\t', ' ', '(', ')', '\x7b', '\x7d', '.', ',', '=', ';', '\n']

section
variable {parent : String} (hparent : IsWordName parent)
include hparent

theorem isMadeOf_injectedService : IsMadeOf ['\'', ',', ' '] (injectedService parent) :=
  IsMadeOf.literal (by decide) |>.append (.word hparent) |>.append (.literal (by decide))

theorem isMadeOf_boundService : IsMadeOf [',', ' '] (boundService parent) :=
  (IsMadeOf.word hparent).append (.literal (by decide))

theorem isMadeOf_fetchCall : IsMadeOf ['\t', '(', ')', ';', '\n'] (fetchCall parent) :=
  IsMadeOf.literal (by decide) |>.append (.word hparent.capitalized)
    |>.append (.literal (by decide))

theorem isMadeOf_fetchFunction : IsMadeOf fetchSigns (fetchFunction parent) :=
  have hgetter : IsMadeOf fetchSigns ("get" ++ capitalized parent) :=
    (IsMadeOf.literal (by decide)).append (.word hparent.capitalized)
  IsMadeOf.literal (by decide) |>.append hgetter |>.append (.literal (by decide))
    |>.append (.literal (by decide)) |>.append (.word hparent) |>.append (.literal (by decide))
    |>.append hgetter |>.append (.literal (by decide)) |>.append (.literal (by decide))
    |>.append (.literal (by decide)) |>.append (.word hparent) |>.append (.literal (by decide))
    |>.append (.literal (by decide)) |>.append (.literal (by decide)) |>.append (.literal (by decide))

end

/-! ### Injected services -/

/-- A text in quotes. -/
def quoted (text : List Char) : List Char := '\'' :: (text ++ ['\''])

/-- The token by which a service is injected. -/
def dependency (name : String) : String := "'" ++ name ++ "Service'"

theorem isMadeOf_dependency {name : String} (h : IsWordName name) : IsMadeOf ['\''] (dependency name) :=
  IsMadeOf.literal (by decide) |>.append (.word h) |>.append (.literal (by decide))

theorem toList_dependency (name : String) :
    (dependency name).toList = quoted (name ++ "Service").toList := by
  simp [dependency, quoted]

theorem toList_injectedService (name : String) :
    (injectedService name).toList = quoted (name ++ "Service").toList ++ [',', ' '] := by
  simp [injectedService, quoted]

/-- A text in quotes can stand at a quote only. -/
theorem occurrences_quoted_cons {word : List Char} {c : Char} (hc : c ≠ '\'') (rest : List Char) :
    occurrences (quoted word) (c :: rest) = occurrences (quoted word) rest := by
  rw [Text.occurrences_cons, if_neg, Nat.zero_add]
  rw [quoted, List.cons_prefix_cons]
  exact fun h => hc h.1.symm

/-- Nor in a text that ends with the first quote. -/
theorem occurrences_quoted_concat {word text : List Char} (htext : '\'' ∉ text) :
    occurrences (quoted word) (text ++ ['\'']) = 0 := by
  have h : occurrences ([] ++ '\'' :: (word ++ ['\''])) (text ++ ['\'']) = _ :=
    Text.occurrences_around (by simp) htext
  simpa [occurrences, quoted] using h

section
variable {word : List Char} (hquote : '\'' ∉ word)
include hquote

/-- A text in quotes at the beginning, whose second quote may open the next one. -/
theorem occurrences_quoted_append {text : List Char} (htext : '\'' ∉ text) (rest : List Char) :
    occurrences (quoted word) (quoted text ++ rest) =
      (if word = text then 1 else 0) +
        ((if word ++ ['\''] <+: rest then 1 else 0) + occurrences (quoted word) rest) := by
  have hquoted : quoted word = [] ++ '\'' :: (word ++ ['\'']) := rfl
  have hsame : word ++ ['\''] <+: text ++ '\'' :: rest ↔ word = text := by
    rw [Text.prefix_around_iff hquote htext]
    simp
  have hsplit : quoted text ++ rest = [] ++ '\'' :: (text ++ '\'' :: rest) := by simp [quoted]
  rw [hsplit, hquoted, Text.occurrences_around (by simp) (by simp),
    Text.occurrences_around (by simp) htext]
  simp only [List.nil_suffix, true_and, hsame]

theorem occurrences_quoted {text : List Char} (htext : '\'' ∉ text) :
    occurrences (quoted word) (quoted text) = if word = text then 1 else 0 := by
  have h := occurrences_quoted_append hquote htext []
  simpa [occurrences, quoted] using h

/-- A word stands among words in quotes as often as it is one of them. -/
theorem occurrences_dependencies (hcomma : ',' ∉ word) (hne : word ≠ []) {words : List (List Char)}
    (hwords : ∀ w ∈ words, '\'' ∉ w) (rest : List Char) :
    occurrences (quoted word) (words.flatMap (fun w => quoted w ++ [',', ' ']) ++ rest) =
      words.count word + occurrences (quoted word) rest := by
  induction words with
  | nil => simp
  | cons w words ih =>
    have ih := ih fun v hv => hwords v (by simp [hv])
    have hopen (rest : List Char) : ¬ word ++ ['\''] <+: ',' :: rest := by
      cases word with
      | nil => exact absurd rfl hne
      | cons c word =>
        rw [List.cons_append, List.cons_prefix_cons]
        exact fun h => hcomma (by simp [h.1])
    rw [List.flatMap_cons, List.append_assoc, List.append_assoc,
      occurrences_quoted_append hquote (hwords w (by simp)), List.cons_append, List.cons_append,
      List.nil_append, if_neg (hopen _), occurrences_quoted_cons (by decide),
      occurrences_quoted_cons (by decide), ih, List.count_cons]
    simp only [beq_iff_eq, eq_comm (a := w)]
    omega

end

/-! ### Fetch functions -/

/-- The head of the function that loads the collection of a parent. -/
def fetchHeader (name : String) : String := "function get" ++ capitalized name ++ "()"

theorem isMadeOf_fetchHeader {name : String} (h : IsWordName (capitalized name)) :
    IsMadeOf [' ', '(', ')'] (fetchHeader name) :=
  IsMadeOf.literal (by decide) |>.append (.word h) |>.append (.literal (by decide))

/-- The first line of the function that loads the collection of a parent. -/
def fetchOpening (parent : String) : String := "\t\tfunction get" ++ capitalized parent ++ "() \x7b"

/-- The lines below it. -/
def fetchBody (parent : String) : List String := [
  "\t\t\t" ++ parent ++ "Service.get" ++ capitalized parent ++ "().then(",
  "\t\t\tfunction(response)\x7b",
  "\t\t\t\tvm." ++ parent ++ " = response.data.data;",
  "\t\t\t\x7d,",
  "\t\t\tfunction(error)\x7bconsole.error(error)\x7d);",
  "\t\t\x7d",
  ""]

theorem fetchFunction_eq_lines (parent : String) :
    fetchFunction parent =
      String.join ((fetchOpening parent :: fetchBody parent).map (· ++ "\n")) := by
  refine String.toList_inj.1 ?_
  unfold fetchFunction fetchOpening fetchBody
  simp [String.toList_append]

/-- Lines are searched one by one. -/
theorem occurrences_lines {piece : List Char} (hbreak : '\n' ∉ piece) (lines : List String)
    (rest : List Char) :
    occurrences piece ((String.join (lines.map (· ++ "\n"))).toList ++ rest) =
      occurrencesIn piece (lines.map String.toList) + occurrences piece rest := by
  induction lines with
  | nil => exact (Nat.zero_add _).symm
  | cons line lines ih =>
    rw [List.map_cons, String.join_cons, String.toList_append, String.toList_append, List.append_assoc,
      List.append_assoc, List.map_cons, occurrencesIn, Nat.add_assoc, ← ih]
    exact Text.occurrences_append_cons hbreak _ _

/-- The head of a fetch function does not stand in the body of one. -/
theorem occurrences_fetchBody (name : String) {parent : String} (hparent : IsWordName parent) :
    ∀ line ∈ fetchBody parent, occurrences (fetchHeader name).toList line.toList = 0 := by
  have hopen : '(' ∈ (fetchHeader name).toList := by simp [fetchHeader]
  have hblank : ' ' ∈ (fetchHeader name).toList := by simp [fetchHeader]
  intro line hline
  simp only [fetchBody, List.mem_cons, List.not_mem_nil, or_false] at hline
  rcases hline with rfl | rfl | rfl | rfl | rfl | rfl | rfl
  · refine Text.occurrences_eq_zero_of_not_mem hblank ?_
    simpa using ⟨hparent.not_mem (c := ' ') rfl, hparent.capitalized.not_mem (c := ' ') rfl⟩
  · exact Text.occurrences_eq_zero_of_not_mem hblank (by decide)
  · refine Text.occurrences_eq_zero_of_not_mem hopen ?_
    simpa using hparent.not_mem (c := '(') rfl
  all_goals exact Text.occurrences_eq_zero_of_not_mem hblank (by decide)

section
variable {name : String} (hname : IsWordName (capitalized name))
include hname

/-- The head of a fetch function stands in the first line of the same function only. -/
theorem occurrences_fetchOpening {parent : String} (hparent : IsWordName (capitalized parent)) :
    occurrences (fetchHeader name).toList (fetchOpening parent).toList =
      if capitalized parent = capitalized name then 1 else 0 := by
  have hheader : (fetchHeader name).toList = "function".toList ++
      ' ' :: ("get".toList ++ (capitalized name).toList ++ '(' :: [')']) := by
    simp [fetchHeader]
  have hline : (fetchOpening parent).toList = "\t\tfunction".toList ++
      ' ' :: ("get".toList ++ (capitalized parent).toList ++ "()".toList ++ ' ' :: ['\x7b']) := by
    simp [fetchOpening]
  have hblank : ' ' ∉ "get".toList ++ (capitalized parent).toList ++ "()".toList := by
    simpa using hparent.not_mem (c := ' ') rfl
  have hsame : "get".toList ++ (capitalized name).toList ++ '(' :: [')'] <+:
      "get".toList ++ (capitalized parent).toList ++ "()".toList ++ ' ' :: ['\x7b'] ↔
        capitalized parent = capitalized name := by
    have hopen {word : String} (hword : IsWordName word) : '(' ∉ "get".toList ++ word.toList := by
      simpa using hword.not_mem (c := '(') rfl
    have hcall : "get".toList ++ (capitalized parent).toList ++ "()".toList ++ ' ' :: ['\x7b'] =
        "get".toList ++ (capitalized parent).toList ++ '(' :: ')' :: ' ' :: ['\x7b'] := by simp
    rw [hcall, Text.prefix_around_iff (hopen hname) (hopen hparent), List.append_cancel_left_eq,
      String.toList_inj, eq_comm]
    simp
  -- it cannot begin before the second blank: a function has no name that ends in a bracket
  have hsecond : ¬ "function".toList <:+ "get".toList ++ (capitalized parent).toList ++ "()".toList := by
    intro h
    have hlast := h.getLast (by decide)
    simp at hlast
  have hrest : occurrences (fetchHeader name).toList ['\x7b'] = 0 :=
    Text.occurrences_eq_zero_of_not_mem (c := '(') (by simp [fetchHeader]) (by decide)
  rw [hheader] at hrest ⊢
  rw [hline, Text.occurrences_around (by decide) (by decide), Text.occurrences_around (by decide) hblank,
    hrest]
  have hfirst : "function".toList <:+ "\t\tfunction".toList := by decide
  simp only [hfirst, hsecond, hsame, true_and, false_and, if_false, Nat.add_zero]

/-- The head of a fetch function stands among such functions as often as its parent is one
of theirs. -/
theorem occurrences_fetchFunctions {parents : List String}
    (hparents : ∀ parent ∈ parents, IsWordName parent) :
    occurrences (fetchHeader name).toList (String.join (parents.map fetchFunction)).toList =
      (parents.map capitalized).count (capitalized name) := by
  have hbreak : '\n' ∉ (fetchHeader name).toList :=
    (isMadeOf_fetchHeader hname).not_mem rfl (by decide)
  induction parents with
  | nil => simp [occurrences, fetchHeader]
  | cons parent parents ih =>
    have hparent := hparents parent (by simp)
    have hbody : occurrencesIn (fetchHeader name).toList ((fetchBody parent).map String.toList) = 0 :=
      Text.occurrencesIn_eq_zero (List.forall_mem_map.2 (occurrences_fetchBody name hparent))
    rw [List.map_cons, String.join_cons, String.toList_append, fetchFunction_eq_lines,
      occurrences_lines hbreak, List.map_cons, occurrencesIn, hbody, Nat.add_zero,
      occurrences_fetchOpening hname hparent.capitalized,
      ih fun other hother => hparents other (by simp [hother]), List.map_cons, List.count_cons,
      Nat.add_comm]
    simp only [beq_iff_eq]

end

end Fragment

end Scaffold
