import Mathlib.Data.List.Forall2
import Scaffold.Text.Word

/-!
# Characters without case

The characters of ASCII other than letters have no case: a change of case keeps them, and no
other character becomes one of them. So a text keeps its places for them when its case changes
(`Recased.splitOn`), as it does when it gets a capital (`recased_capitalize`) or is put in
lower case (`recased_lowerText`).
-/

namespace Scaffold.Text

/-- The characters of ASCII other than letters. -/
def isCaseless (c : Char) : Bool := isAscii c && !c.isAlpha

/-! ### One character -/

/-- What a character may become when its case changes. -/
structure IsCasing (c : Char) (piece : List Char) : Prop where
  ne_nil : piece ≠ []
  /-- No other character becomes one without case. -/
  eq_of_isCaseless : ∀ d ∈ piece, isCaseless d → d = c
  /-- A character without case stays what it is. -/
  of_isCaseless : isCaseless c → piece = [c]

/-- Of one character, another of its own kind. -/
theorem IsCasing.single {c d : Char} (h : isCaseless d = false ∧ isCaseless c = false ∨ d = c) :
    IsCasing c [d] where
  ne_nil := by simp
  eq_of_isCaseless := by
    intro e he hcaseless
    obtain rfl := List.mem_singleton.1 he
    exact h.elim (fun h => by simp [h.1] at hcaseless) id
  of_isCaseless hc := h.elim (fun h => by simp [h.2] at hc) fun h => by rw [h]

theorem IsCasing.refl (c : Char) : IsCasing c [c] := .single (.inr rfl)

theorem isCaseless_eq_false_of_not_isAscii {c : Char} (h : isAscii c = false) :
    isCaseless c = false := by
  rw [isCaseless, h, Bool.false_and]

/-- A property of all characters of ASCII, from a check of each. -/
theorem of_isAscii {p : Char → Bool} (h : ∀ n < 128, p (Char.ofNat n)) {c : Char} (hc : isAscii c) :
    p c := by
  have := h c.toNat (by simpa [isAscii] using hc)
  rwa [Char.ofNat_toNat] at this

/-- Tables of a case mapping that lead to no character without case. -/
structure AvoidsCaseless (expansions : List (Nat × List Nat))
    (shifts : List (Nat × Nat × Nat × Nat)) : Prop where
  expansions : ∀ e ∈ expansions, e.2 ≠ [] ∧ ∀ n ∈ e.2, isCaseless (Char.ofNat n) = false
  shifts : ∀ s ∈ shifts, ∀ k ≤ s.2.1 - s.1, isCaseless (Char.ofNat (s.2.2.2 + k)) = false

theorem avoidsCaseless_upper :
    AvoidsCaseless CaseData.upperExpansions CaseData.upperShifts := by
  constructor <;> decide +kernel

theorem avoidsCaseless_lower :
    AvoidsCaseless CaseData.lowerExpansions CaseData.lowerShifts := by
  constructor <;> decide +kernel

namespace AvoidsCaseless

variable {expansions : List (Nat × List Nat)} {shifts : List (Nat × Nat × Nat × Nat)}
  (h : AvoidsCaseless expansions shifts)
include h

theorem shift? {n m : Nat} (hm : Text.shift? shifts n = some m) :
    isCaseless (Char.ofNat m) = false := by
  obtain ⟨⟨first, last, step, target⟩, hs, hm⟩ := List.exists_of_findSome?_eq_some hm
  simp only [Option.ite_none_right_eq_some, Bool.and_eq_true, decide_eq_true_eq,
    Option.some.injEq] at hm
  obtain ⟨⟨⟨-, hlast⟩, -⟩, rfl⟩ := hm
  exact h.shifts _ hs _ (Nat.sub_le_sub_right hlast first)

theorem isCasing_mapCase {c : Char} (hc : isAscii c = false) :
    IsCasing c (mapCase expansions shifts c) := by
  have hcase := isCaseless_eq_false_of_not_isAscii hc
  rw [mapCase]
  split
  case h_1 codes hlookup =>
    obtain ⟨before, behind, htable, -⟩ := List.lookup_eq_some_iff.1 hlookup
    obtain ⟨hne, hcodes⟩ := h.expansions (c.toNat, codes) (by simp [htable])
    refine ⟨by simpa using hne, fun d hd hcaseless => ?_, fun hcaseless => by simp [hcase] at hcaseless⟩
    obtain ⟨n, hn, rfl⟩ := List.mem_map.1 hd
    simp [hcodes n hn] at hcaseless
  case h_2 =>
    cases hshift : Text.shift? shifts c.toNat with
    | none => exact .refl c
    | some m => exact .single (.inl ⟨h.shift? hshift, hcase⟩)

end AvoidsCaseless

/-- A mapping within ASCII that keeps the characters without case. -/
theorem IsCasing.of_ascii {f : Char → Char} (h : ∀ n < 128,
      let c := Char.ofNat n
      (!isCaseless (f c) && !isCaseless c) || f c == c) {c : Char} (hc : isAscii c) :
    IsCasing c [f c] := by
  have := of_isAscii (p := fun c => (!isCaseless (f c) && !isCaseless c) || f c == c) h hc
  exact .single (by simpa using this)

theorem isCasing_upper (c : Char) : IsCasing c (upper c) := by
  rw [upper]
  split
  case isTrue hc => exact .of_ascii (by decide) hc
  case isFalse hc => exact avoidsCaseless_upper.isCasing_mapCase (by simpa using hc)

theorem isCasing_lower (c : Char) : IsCasing c (lower c) := by
  rw [lower]
  split
  case isTrue hc => exact .of_ascii (by decide) hc
  case isFalse hc => exact avoidsCaseless_lower.isCasing_mapCase (by simpa using hc)

/-! ### Texts -/

/-- A text whose case is changed to another one, character by character. -/
inductive Recased : List Char → List Char → Prop where
  | nil : Recased [] []
  | cons {c : Char} {piece cs ds : List Char} :
    IsCasing c piece → Recased cs ds → Recased (c :: cs) (piece ++ ds)

theorem splitOn_append_of_not_mem {d : Char} {as : List Char} (h : d ∉ as) (bs : List Char) :
    (as ++ bs).splitOn d = (bs.splitOn d).modifyHead (as ++ ·) := by
  induction as with
  | nil =>
    change bs.splitOn d = (bs.splitOn d).modifyHead id
    rw [List.modifyHead_id, id]
  | cons a as ih =>
    rw [List.mem_cons, not_or] at h
    rw [List.cons_append, List.splitOn_cons_eq_if_modifyHead, ih h.2, if_neg (by simpa using Ne.symm h.1),
      List.modifyHead_modifyHead]
    rfl

namespace Recased

theorem refl (cs : List Char) : Recased cs cs := by
  induction cs with
  | nil => exact .nil
  | cons c cs ih => exact .cons (.refl c) ih

theorem append {as bs cs ds : List Char} (h : Recased as bs) (h' : Recased cs ds) :
    Recased (as ++ cs) (bs ++ ds) := by
  induction h with
  | nil => exact h'
  | cons hpiece _ ih =>
    rw [List.cons_append, List.append_assoc]
    exact .cons hpiece ih

/-- A text changes where its parts do. -/
theorem of_append {as bs cs : List Char} (h : Recased (as ++ bs) cs) :
    ∃ as' bs', cs = as' ++ bs' ∧ Recased as as' ∧ Recased bs bs' := by
  induction as generalizing cs with
  | nil => exact ⟨[], cs, rfl, .nil, h⟩
  | cons a as ih =>
    cases h with
    | cons hpiece hrest =>
      obtain ⟨as', bs', rfl, has, hbs⟩ := ih hrest
      exact ⟨_, bs', (List.append_assoc ..).symm, .cons hpiece has, hbs⟩

theorem eq_nil_iff {cs ds : List Char} (h : Recased cs ds) : ds = [] ↔ cs = [] := by
  cases h with
  | nil => simp
  | cons hpiece => simp [hpiece.ne_nil]

/-- Characters without case stand in both texts alike. -/
theorem mem_iff {cs ds : List Char} (h : Recased cs ds) {d : Char} (hd : isCaseless d) :
    d ∈ ds ↔ d ∈ cs := by
  induction h with
  | nil => rfl
  | @cons c piece cs ds hpiece _ ih =>
    rw [List.mem_append, List.mem_cons, ih]
    refine or_congr_left ⟨fun hmem => hpiece.eq_of_isCaseless d hmem hd, ?_⟩
    rintro rfl
    simp [hpiece.of_isCaseless hd]

theorem isCasing {c : Char} {ds : List Char} (h : Recased [c] ds) : IsCasing c ds := by
  cases h with
  | cons hpiece hrest => cases hrest; simpa using hpiece

theorem isCasing_trans {c : Char} {piece ds : List Char} (h : IsCasing c piece)
    (h' : Recased piece ds) : IsCasing c ds where
  ne_nil := fun hnil => h.ne_nil (h'.eq_nil_iff.1 hnil)
  eq_of_isCaseless d hd hcaseless :=
    h.eq_of_isCaseless d ((h'.mem_iff hcaseless).1 hd) hcaseless
  of_isCaseless hc := by
    rw [h.of_isCaseless hc] at h'
    exact h'.isCasing.of_isCaseless hc

theorem trans {as bs cs : List Char} (h : Recased as bs) (h' : Recased bs cs) : Recased as cs := by
  induction h generalizing cs with
  | nil => exact h'
  | cons hpiece _ ih =>
    obtain ⟨piece', rest, rfl, hfirst, hrest⟩ := h'.of_append
    exact .cons (isCasing_trans hpiece hfirst) (ih hrest)

/-- A text without case stays what it is. -/
theorem eq_of_isCaseless {cs ds : List Char} (h : Recased cs ds) (hcs : ∀ c ∈ cs, isCaseless c) :
    ds = cs := by
  induction h with
  | nil => rfl
  | cons hpiece _ ih =>
    rw [hpiece.of_isCaseless (hcs _ (by simp)), ih fun c hc => hcs c (by simp [hc]),
      List.singleton_append]

/-- A text without case comes from itself alone. -/
theorem eq_iff_of_isCaseless {cs ds text : List Char} (h : Recased cs ds)
    (htext : text.all isCaseless) : ds = text ↔ cs = text := by
  rw [List.all_eq_true] at htext
  refine ⟨fun hds => ?_, fun hcs => ?_⟩
  · subst hds
    induction h with
    | nil => rfl
    | @cons c piece cs ds hpiece _ ih =>
      cases piece with
      | nil => exact absurd rfl hpiece.ne_nil
      | cons d piece =>
        have hd : isCaseless d := htext d (by simp)
        obtain rfl := hpiece.eq_of_isCaseless d (by simp) hd
        have hrest := ih fun e he => htext e (by simp [he])
        rw [hpiece.of_isCaseless hd, hrest, List.singleton_append]
  · subst hcs
    exact h.eq_of_isCaseless htext

theorem head?_eq_some_iff {cs ds : List Char} (h : Recased cs ds) {d : Char} (hd : isCaseless d) :
    ds.head? = some d ↔ cs.head? = some d := by
  cases h with
  | nil => rfl
  | @cons c piece cs ds hpiece =>
    cases piece with
    | nil => exact absurd rfl hpiece.ne_nil
    | cons e piece =>
      simp only [List.cons_append, List.head?_cons, Option.some.injEq]
      refine ⟨fun he => ?_, fun hc => ?_⟩
      · exact he ▸ (hpiece.eq_of_isCaseless e (by simp) (he ▸ hd)).symm
      · have hpiece := hpiece.of_isCaseless (hc ▸ hd)
        rw [List.cons.injEq] at hpiece
        exact hpiece.1.trans hc

/-- The pieces between characters without case change one by one. -/
theorem splitOn {cs ds : List Char} (h : Recased cs ds) {d : Char} (hd : isCaseless d) :
    List.Forall₂ Recased (cs.splitOn d) (ds.splitOn d) := by
  induction h with
  | nil => exact .cons .nil .nil
  | @cons c piece cs ds hpiece _ ih =>
    rw [List.splitOn_cons_eq_if_modifyHead]
    by_cases hc : c = d
    · subst hc
      rw [hpiece.of_isCaseless hd, List.singleton_append, List.splitOn_cons_eq_if_modifyHead]
      simpa using (show Recased [] [] ∧ _ from ⟨.nil, ih⟩)
    · have hnot : d ∉ piece := fun hmem => hc (hpiece.eq_of_isCaseless d hmem hd).symm
      rw [splitOn_append_of_not_mem hnot, if_neg (by simpa using hc)]
      generalize cs.splitOn d = before, ds.splitOn d = behind at ih
      cases ih with
      | nil => exact .nil
      | cons hfirst hrest => exact .cons (.cons hpiece hfirst) hrest

/-- What does not hang on case holds of a piece of the one text exactly if it holds of one of the
other. -/
theorem exists_mem_splitOn_iff {q : List Char → Prop} (hq : ∀ {as bs}, Recased as bs → (q bs ↔ q as))
    {cs ds : List Char} (h : Recased cs ds) {d : Char} (hd : isCaseless d) :
    (∃ piece ∈ ds.splitOn d, q piece) ↔ ∃ piece ∈ cs.splitOn d, q piece := by
  have hpieces := h.splitOn hd
  generalize cs.splitOn d = before, ds.splitOn d = behind at hpieces
  induction hpieces with
  | nil => rfl
  | cons hfirst _ ih =>
    simp only [List.mem_cons, exists_eq_or_imp, hq hfirst, ih]

/-- A piece without case stands between such characters in both texts alike. -/
theorem mem_splitOn_iff {cs ds text : List Char} (h : Recased cs ds) {d : Char} (hd : isCaseless d)
    (htext : text.all isCaseless) : text ∈ ds.splitOn d ↔ text ∈ cs.splitOn d := by
  simpa using exists_mem_splitOn_iff (q := (· = text)) (fun h => h.eq_iff_of_isCaseless htext) h hd

end Recased

/-! ### Letter case -/

theorem recased_capitalize (text : List Char) : Recased text (capitalize text) := by
  cases text with
  | nil => exact .nil
  | cons c text => exact .cons (isCasing_upper c) (.refl text)

theorem recased_lowerAfter (before text : List Char) : Recased text (lowerAfter before text) := by
  induction text generalizing before with
  | nil => exact .nil
  | cons c text ih =>
    refine .cons ?_ (ih _)
    split
    case isTrue hc =>
      subst hc
      exact .single (.inl ⟨by split <;> decide, by decide⟩)
    case isFalse => exact isCasing_lower c

theorem recased_lowerText (text : List Char) : Recased text (lowerText text) :=
  recased_lowerAfter [] text

end Scaffold.Text
