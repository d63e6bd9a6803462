import Mathlib.Data.List.Basic
import Scaffold.Proofs.Text.Replace

/-!
# How often a piece stands in a text

A character that a piece does not hold divides a text into two that are searched by themselves
(`occurrences_append_cons`). Where a piece holds a character, it can stand around the first such
character of a text in one way only (`occurrences_around`).
-/

namespace Scaffold.Text

/-- How often a piece stands in a text, where places may overlap. -/
def occurrences (piece : List Char) : List Char → Nat
  | [] => if piece.isEmpty then 1 else 0
  | c :: text => (if piece.isPrefixOf (c :: text) then 1 else 0) + occurrences piece text

variable {piece text : List Char}

theorem occurrences_cons (piece : List Char) (c : Char) (text : List Char) :
    occurrences piece (c :: text) =
      (if piece <+: c :: text then 1 else 0) + occurrences piece text := by
  simp only [occurrences, List.isPrefixOf_iff_prefix]

theorem occurrences_eq_zero_iff : occurrences piece text = 0 ↔ ¬ piece <:+: text := by
  induction text with
  | nil => simp [occurrences]
  | cons c text ih =>
    rw [occurrences_cons, Nat.add_eq_zero_iff, ih, List.infix_cons_iff, not_or]
    simp

/-- A piece does not stand in a text that lacks one of its characters. -/
theorem occurrences_eq_zero_of_not_mem {c : Char} (hpiece : c ∈ piece) (htext : c ∉ text) :
    occurrences piece text = 0 :=
  occurrences_eq_zero_iff.2 fun h => htext (h.mem hpiece)

/-- Nor in one that lacks a part of it. -/
theorem occurrences_eq_zero_of_not_infix {part : List Char} (hpiece : part <:+: piece)
    (htext : ¬ part <:+: text) : occurrences piece text = 0 :=
  occurrences_eq_zero_iff.2 fun h => htext (hpiece.trans h)

/-- A character that the piece does not hold divides a text. -/
theorem occurrences_append_cons {d : Char} (hd : d ∉ piece) (a b : List Char) :
    occurrences piece (a ++ d :: b) = occurrences piece a + occurrences piece b := by
  induction a with
  | nil =>
    have hhead : piece <+: d :: b ↔ piece.isEmpty := by
      rw [List.isEmpty_iff]
      refine ⟨fun h => List.prefix_nil.1 (prefix_of_prefix_append_cons (a := []) hd h), ?_⟩
      rintro rfl
      exact List.nil_prefix
    rw [List.nil_append, occurrences_cons, occurrences]
    simp only [hhead]
  | cons c a ih =>
    have hhead : piece <+: c :: (a ++ d :: b) ↔ piece <+: c :: a :=
      ⟨prefix_of_prefix_append_cons (a := c :: a) hd, fun h => h.trans (List.prefix_append (c :: a) _)⟩
    rw [List.cons_append, occurrences_cons, occurrences_cons, ih, Nat.add_assoc]
    simp only [hhead]

/-! ### Many texts -/

/-- How often a piece stands in texts that are searched one by one. -/
def occurrencesIn (piece : List Char) : List (List Char) → Nat
  | [] => 0
  | text :: texts => occurrences piece text + occurrencesIn piece texts

theorem occurrencesIn_append (piece : List Char) (as bs : List (List Char)) :
    occurrencesIn piece (as ++ bs) = occurrencesIn piece as + occurrencesIn piece bs := by
  induction as with
  | nil => exact (Nat.zero_add _).symm
  | cons a as ih => rw [List.cons_append, occurrencesIn, occurrencesIn, ih, Nat.add_assoc]

theorem occurrencesIn_eq_zero {texts : List (List Char)}
    (h : ∀ text ∈ texts, occurrences piece text = 0) : occurrencesIn piece texts = 0 := by
  induction texts with
  | nil => rfl
  | cons text texts ih =>
    rw [occurrencesIn, h text (by simp), ih fun other hother => h other (by simp [hother])]

/-! ### Around a character of the piece -/

section
variable {d : Char} {before behind a b : List Char} (hbefore : d ∉ before) (ha : d ∉ a)
include hbefore ha

theorem prefix_around_iff : before ++ d :: behind <+: a ++ d :: b ↔ before = a ∧ behind <+: b := by
  induction before generalizing a with
  | nil =>
    cases a with
    | nil => simp
    | cons c a => simp [List.cons_prefix_cons, List.ne_of_not_mem_cons ha]
  | cons x before ih =>
    cases a with
    | nil => simp [List.cons_prefix_cons, (List.ne_of_not_mem_cons hbefore).symm]
    | cons c a =>
      rw [List.cons_append, List.cons_append, List.cons_prefix_cons,
        ih (List.not_mem_of_not_mem_cons hbefore) (List.not_mem_of_not_mem_cons ha),
        List.cons.injEq, and_assoc]

/-- A piece that holds a character stands around the first such character of a text, or
behind it. -/
theorem occurrences_around :
    occurrences (before ++ d :: behind) (a ++ d :: b) =
      (if before <:+ a ∧ behind <+: b then 1 else 0) + occurrences (before ++ d :: behind) b := by
  induction a with
  | nil =>
    have hhead : before ++ d :: behind <+: d :: b ↔ before = [] ∧ behind <+: b :=
      prefix_around_iff hbefore ha
    rw [List.nil_append, occurrences_cons]
    simp only [hhead, List.suffix_nil]
  | cons c a ih =>
    have hhead : before ++ d :: behind <+: c :: (a ++ d :: b) ↔ before = c :: a ∧ behind <+: b :=
      prefix_around_iff hbefore ha
    have hend : before <:+ c :: a ↔ before = c :: a ∨ before <:+ a := List.suffix_cons_iff
    have hlonger : ¬ c :: a <:+ a := fun h => Nat.not_succ_le_self _ h.length_le
    rw [List.cons_append, occurrences_cons, ih (List.not_mem_of_not_mem_cons ha)]
    simp only [hhead, hend]
    by_cases h : before = c :: a
    · simp [h, hlonger]
    · simp [h]

theorem infix_around_iff : before ++ d :: behind <:+: a ++ d :: b ↔
    before <:+ a ∧ behind <+: b ∨ before ++ d :: behind <:+: b := by
  rw [← not_iff_not, not_or, ← occurrences_eq_zero_iff, ← occurrences_eq_zero_iff,
    occurrences_around hbefore ha, Nat.add_eq_zero_iff]
  simp

end

end Scaffold.Text
