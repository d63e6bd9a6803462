import Scaffold.Proofs.Template.OnePass
import Scaffold.Proofs.Template.Rendering

/-!
# Slots filled one after the other and in one pass

The slots of a base file are filled one after the other, so that the text which a slot is looked
for in has the values of other slots in it already. That is one pass over the source, in whatever
order the slots come, if each of them finds its token just as often as the source has it
(`Filling.KeepsSlots`). A value that brings about the token of a later slot is filled as if it
were a part of the source; in one pass the token is left over. Hence the condition is also
necessary wherever no slot is left (`BaseFile.render_eq_fillInOnePass`), as the second stage
demands of every file.
-/

namespace Scaffold

open Template (spelledPairs)

namespace Filling

/-- A text with slots filled in one pass from left to right. -/
def fillInOnePass (filling : Filling) (slots : List Slot) (text : String) : String :=
  String.ofList <| Text.replaceTokens
    (slots.map fun s => (s.token.toList, (filling.value s).toList)) text.toList

/-- While slots are filled one after the other, beginning with `text`, each of them finds its token
just as often as `source` has it. -/
def KeepsSlots (filling : Filling) (source : String) : List Slot → String → Prop
  | [], _ => True
  | s :: slots, text =>
    (tokenNames text).count s.name = (tokenNames source).count s.name ∧
      KeepsSlots filling source slots (replaced s.token (filling.value s) text)

instance decidableKeepsSlots (filling : Filling) (source : String) :
    ∀ slots text, Decidable (filling.KeepsSlots source slots text)
  | [], _ => .isTrue trivial
  | s :: slots, text =>
    have := decidableKeepsSlots filling source slots (replaced s.token (filling.value s) text)
    inferInstanceAs (Decidable (_ ∧ _))

/-- The names of slots with their values. -/
def pairs (filling : Filling) (slots : List Slot) : List (List Char × List Char) :=
  slots.map fun s => (s.name.toList, (filling.value s).toList)

variable {filling : Filling} {source : String}

theorem toList_fillInOnePass (slots : List Slot) (text : String) :
    (filling.fillInOnePass slots text).toList =
      Text.replaceTokens (spelledPairs (filling.pairs slots)) text.toList := by
  simp only [fillInOnePass, String.toList_ofList, pairs, spelledPairs, List.map_map,
    Function.comp_def, Slot.token, Template.toList_delimited]

theorem pairs_append (slots later : List Slot) :
    filling.pairs (slots ++ later) = filling.pairs slots ++ filling.pairs later := List.map_append

theorem isIdentifier_of_mem_pairs {slots : List Slot} :
    ∀ v ∈ filling.pairs slots, Template.isIdentifier v.1 :=
  List.forall_mem_map.2 fun s _ => Template.isIdentifier_slot s

end Filling

namespace Slot

theorem name_injective : Function.Injective name := by
  have hfind : ∀ s : Slot, all.find? (·.name == s.name) = some s := by
    intro s
    cases s <;> decide
  intro s t h
  exact Option.some.inj ((hfind s).symm.trans (h ▸ hfind t))

theorem toList_name_inj {s t : Slot} : s.name.toList = t.name.toList ↔ s = t :=
  String.toList_inj.trans name_injective.eq_iff

end Slot

theorem BaseFile.nodup_slots (file : BaseFile) : file.slots.Nodup := by
  cases file with
  | model model => cases model <;> decide
  | aggregate aggregate => exact List.nodup_singleton _

namespace Filling

variable {filling : Filling} {source : String}

theorem mem_map_fst_pairs {slots : List Slot} {s : Slot} :
    s.name.toList ∈ (filling.pairs slots).map Prod.fst ↔ s ∈ slots := by
  simp only [pairs, List.map_map, List.mem_map, Function.comp_apply, Slot.toList_name_inj,
    exists_eq_right]

theorem nodup_map_fst_pairs {slots : List Slot} (h : slots.Nodup) :
    ((filling.pairs slots).map Prod.fst).Nodup := by
  rw [pairs, List.map_map]
  exact h.map fun s t heq => Slot.toList_name_inj.1 heq

/-! ### One pass -/

theorem lookup_pairs_of_perm {slots order : List Slot} (h : order.Perm slots) (name : List Char) :
    (filling.pairs order).lookup name = (filling.pairs slots).lookup name := by
  induction h with
  | nil => rfl
  | cons s _ ih =>
    simp only [pairs] at ih
    simp only [pairs, List.map_cons, List.lookup_cons, ih]
  | swap s t slots =>
    simp only [pairs, List.map_cons, List.lookup_cons]
    cases hs : name == s.name.toList <;> cases ht : name == t.name.toList <;> try rfl
    -- one name belongs to one slot
    obtain rfl := Slot.toList_name_inj.1 ((beq_iff_eq.1 hs).symm.trans (beq_iff_eq.1 ht))
    rfl
  | trans _ _ ih ih' => exact ih.trans ih'

/-- In one pass the order of the slots makes no difference. -/
theorem fillInOnePass_of_perm {slots order : List Slot} (h : order.Perm slots) (text : String) :
    filling.fillInOnePass order text = filling.fillInOnePass slots text := by
  rw [← String.toList_inj, toList_fillInOnePass, toList_fillInOnePass]
  exact Template.replaceTokens_congr isIdentifier_of_mem_pairs isIdentifier_of_mem_pairs
    (lookup_pairs_of_perm h) _

@[simp] theorem fillInOnePass_nil (text : String) : filling.fillInOnePass [] text = text := by
  rw [← String.toList_inj, toList_fillInOnePass]
  exact Text.replaceTokens_eq_self fun p hp => nomatch hp

section
variable {done slots : List Slot} {s : Slot}

theorem not_mem_of_nodup (h : (done ++ [s] ++ slots).Nodup) : s ∉ done ∧ s ∉ slots := by
  rw [← List.append_cons, List.nodup_middle, List.nodup_cons, List.mem_append, not_or] at h
  exact h.1

theorem spares (hs : s ∉ done) : Template.Spares (spelledPairs (filling.pairs done)) s.name.toList
    (filling.value s).toList := by
  refine .of_not_mem isIdentifier_of_mem_pairs (Template.isIdentifier_slot s) ?_
  rwa [mem_map_fst_pairs]

theorem toList_fillInOnePass_append_singleton (text : String) :
    (filling.fillInOnePass (done ++ [s]) text).toList =
      Template.onePass (spelledPairs (filling.pairs done)) s.name.toList (filling.value s).toList
        text.toList := by
  rw [toList_fillInOnePass, pairs_append, Template.spelledPairs_append]
  rfl

/-- A slot more, for which no other slot's value brings a place. -/
theorem replaced_fillInOnePass (hs : s ∉ done)
    (h : (tokenNames (filling.fillInOnePass done source)).count s.name =
      (tokenNames source).count s.name) :
    replaced s.token (filling.value s) (filling.fillInOnePass done source) =
      filling.fillInOnePass (done ++ [s]) source := by
  rw [count_tokenNames, count_tokenNames, toList_fillInOnePass] at h
  rw [← String.toList_inj, toList_fillInOnePass_append_singleton, replaced, String.toList_ofList,
    Slot.token, Template.toList_delimited, toList_fillInOnePass]
  exact (spares hs).replaceAll_replaceTokens h

/-- What is left over in one pass is left over with more slots filled too. -/
theorem count_tokenNames_fillInOnePass_le (hnodup : (done ++ slots).Nodup) (hs : s ∉ slots) :
    (tokenNames (filling.fillInOnePass done source)).count s.name ≤
      (tokenNames (filling.fillInOnePass (done ++ slots) source)).count s.name := by
  rw [count_tokenNames, count_tokenNames, toList_fillInOnePass, toList_fillInOnePass, pairs_append]
  refine Template.count_findTokens_replaceTokens_le ?_ ?_ (Template.isIdentifier_slot s)
    (mt mem_map_fst_pairs.1 hs) _ <;> rw [← pairs_append]
  · exact isIdentifier_of_mem_pairs
  · exact nodup_map_fst_pairs hnodup

/-- A place that other slots' values bring is left over in one pass. -/
theorem mem_tokenNames_fillInOnePass (hnodup : (done ++ [s] ++ slots).Nodup)
    (h : (tokenNames (filling.fillInOnePass done source)).count s.name ≠
      (tokenNames source).count s.name) :
    s.name ∈ tokenNames (filling.fillInOnePass (done ++ [s] ++ slots) source) := by
  obtain ⟨hdone, hslots⟩ := not_mem_of_nodup hnodup
  have hspares : Template.Spares (spelledPairs (filling.pairs done)) s.name.toList
      (filling.value s).toList := spares hdone
  have hone : s.name ∈ tokenNames (filling.fillInOnePass (done ++ [s]) source) := by
    rw [count_tokenNames, count_tokenNames, toList_fillInOnePass] at h
    rw [← List.count_pos_iff, count_tokenNames, toList_fillInOnePass_append_singleton,
      List.count_pos_iff]
    exact hspares.mem_findTokens_onePass <|
      Nat.lt_of_le_of_ne (hspares.count_findTokens_le source.toList) (Ne.symm h)
  exact List.count_pos_iff.1 <|
    Nat.lt_of_lt_of_le (List.count_pos_iff.2 hone) (count_tokenNames_fillInOnePass_le hnodup hslots)

end

/-! ### One after the other -/

/-- Slots that find their tokens as often as the source has them are filled as in one pass. -/
theorem fill_eq_fillInOnePass (done : List Slot) {slots : List Slot} (hnodup : (done ++ slots).Nodup)
    (h : filling.KeepsSlots source slots (filling.fillInOnePass done source)) :
    filling.fill slots (filling.fillInOnePass done source) =
      filling.fillInOnePass (done ++ slots) source := by
  induction slots generalizing done with
  | nil => rw [List.append_nil]; rfl
  | cons s slots ih =>
    obtain ⟨hcount, hslots⟩ := h
    rw [List.append_cons] at hnodup ⊢
    have hstep := replaced_fillInOnePass (not_mem_of_nodup hnodup).1 hcount
    rw [hstep] at hslots
    rw [fill_cons, hstep, ih _ hnodup hslots]

/-- Slots of which none is left over in one pass find their tokens as often as the source
has them. -/
theorem keepsSlots_of_not_mem (done : List Slot) {slots : List Slot} (hnodup : (done ++ slots).Nodup)
    (h : ∀ s ∈ slots, s.name ∉ tokenNames (filling.fillInOnePass (done ++ slots) source)) :
    filling.KeepsSlots source slots (filling.fillInOnePass done source) := by
  induction slots generalizing done with
  | nil => trivial
  | cons s slots ih =>
    rw [List.append_cons] at hnodup h
    have hcount : (tokenNames (filling.fillInOnePass done source)).count s.name =
        (tokenNames source).count s.name :=
      Decidable.of_not_not fun hne => h s (by simp) (mem_tokenNames_fillInOnePass hnodup hne)
    refine ⟨hcount, ?_⟩
    rw [replaced_fillInOnePass (not_mem_of_nodup hnodup).1 hcount]
    exact ih _ hnodup fun t ht => h t (List.mem_cons_of_mem _ ht)

end Filling

/-- A base file with a value for each of its slots is rendered. In whatever order the slots come, if
each of them finds its token as often as the source has it, the text is the one that one pass gives,
where no value is looked at again; and if no slot is left, only then. (Values that lead from slot to
slot and back to one already filled may leave it over both ways.) -/
theorem BaseFile.render_eq_fillInOnePass (file : BaseFile) (filling : Filling)
    (h : ∀ s ∈ file.slots, (filling.value? s).isSome) (source : String) :
    file.render source filling = .ok ⟨filling.fill file.slots source⟩ ∧
      ∀ order, order.Perm file.slots →
        (filling.KeepsSlots source order source →
          filling.fill order source = filling.fillInOnePass file.slots source) ∧
        ((∀ s ∈ file.slots, s.name ∉ tokenNames (filling.fill order source)) →
          filling.fill order source = filling.fillInOnePass file.slots source →
          filling.KeepsSlots source order source) := by
  refine ⟨render_eq_ok h source, fun order horder => ?_⟩
  have hnodup : ([] ++ order).Nodup := horder.nodup_iff.2 file.nodup_slots
  have hone : filling.fillInOnePass ([] ++ order) source = filling.fillInOnePass file.slots source :=
    Filling.fillInOnePass_of_perm horder source
  constructor
  · intro hkeeps
    have hfill := Filling.fill_eq_fillInOnePass [] hnodup
      (by rwa [Filling.fillInOnePass_nil])
    rwa [Filling.fillInOnePass_nil, hone] at hfill
  · intro hleft heq
    have hkeeps := Filling.keepsSlots_of_not_mem [] hnodup fun s hs => by
      rw [hone, ← heq]
      exact hleft s (horder.mem_iff.1 hs)
    rwa [Filling.fillInOnePass_nil] at hkeeps

/-- Fragments with name codes leave the slots of a list alone, in both orders. -/
theorem BaseFile.listView_render_eq_of_codes :
    let filling := Filling.ofList [(.headerFields, "<th>\x7b%Object%\x7d</th>"),
      (.listFields, "<td>\x7b%object%\x7d</td>")]
    let source := "\x7b%headerFields%\x7d|\x7b%listFields%\x7d"
    let one := filling.fillInOnePass (model .listView).slots source
    (model .listView).render source filling = .ok ⟨one⟩ ∧
      filling.fill [.listFields, .headerFields] source = one ∧
      filling.KeepsSlots source [.headerFields, .listFields] source := by
  intro filling source one
  obtain ⟨hrender, horders⟩ :=
    render_eq_fillInOnePass (model .listView) filling (by decide +kernel) source
  have hfill : filling.fill (model .listView).slots source = one :=
    (horders _ (.refl _)).1 (by decide +kernel)
  refine ⟨hfill ▸ hrender, ?_, ?_⟩
  · exact (horders [.listFields, .headerFields] (.swap _ _ _)).1 (by decide +kernel)
  · exact (horders _ (.refl _)).2 (by decide +kernel) hfill

/-- A fragment for the header of a list that is spelled like the slot of its fields is filled
itself, unless it comes behind them. -/
theorem BaseFile.listView_render_ne_of_slot :
    let filling := Filling.ofList [(.headerFields, "\x7b%listFields%\x7d"), (.listFields, "x")]
    let source := "\x7b%headerFields%\x7d|\x7b%listFields%\x7d"
    (model .listView).render source filling = .ok ⟨"x|x"⟩ ∧
      filling.fillInOnePass (model .listView).slots source = "\x7b%listFields%\x7d|x" ∧
      filling.fill [.listFields, .headerFields] source = "\x7b%listFields%\x7d|x" := by
  decide +kernel

end Scaffold
