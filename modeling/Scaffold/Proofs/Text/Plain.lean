import Scaffold.Proofs.Text.Case

/-!
# Plain texts

A plain text holds no character of the marks of a token. Letter case has no part in the marks, so
that a plain text stays plain with a capital.
-/

namespace Scaffold

namespace Text

/-- The characters that the marks of tokens are made of. -/
def isMark (c : Char) : Bool := c == '{' || c == '%' || c == '}'

/-- A text without characters of marks. -/
def IsPlain (text : List Char) : Prop := ∀ c ∈ text, isMark c = false

theorem IsPlain.nil : IsPlain [] := by simp [IsPlain]

theorem IsPlain.append {a b : List Char} (ha : IsPlain a) (hb : IsPlain b) : IsPlain (a ++ b) :=
  fun c hc => (List.mem_append.1 hc).elim (ha c) (hb c)

theorem IsPlain.brace_not_mem {text : List Char} (h : IsPlain text) : '{' ∉ text :=
  fun hc => absurd (h _ hc) (by decide)

theorem IsPlain.percent_not_mem {text : List Char} (h : IsPlain text) : '%' ∉ text :=
  fun hc => absurd (h _ hc) (by decide)

/-! ### Letter case -/

/-- The characters of marks have no case. -/
theorem isCaseless_of_isMark {c : Char} (h : isMark c) : isCaseless c := by
  simp only [isMark, Bool.or_eq_true, beq_iff_eq] at h
  rcases h with (rfl | rfl) | rfl <;> decide

theorem IsPlain.capitalize {text : List Char} (h : IsPlain text) : IsPlain (capitalize text) := by
  intro c hc
  by_contra hmark
  rw [Bool.not_eq_false] at hmark
  have hcase := isCaseless_of_isMark hmark
  simp [h c (((recased_capitalize text).mem_iff hcase).1 hc)] at hmark

end Text

/-- A string without characters of marks. -/
def IsPlainName (name : String) : Prop := Text.IsPlain name.toList

instance : DecidablePred IsPlainName := fun name =>
  decidable_of_iff (name.toList.all fun c => !Text.isMark c) (by simp [IsPlainName, Text.IsPlain])

theorem IsPlainName.capitalized {name : String} (h : IsPlainName name) :
    IsPlainName (capitalized name) := by
  rw [IsPlainName, Scaffold.capitalized, String.toList_ofList]
  exact Text.IsPlain.capitalize h

end Scaffold
