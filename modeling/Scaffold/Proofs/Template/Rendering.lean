import Mathlib.Data.List.Count
import Scaffold.Proofs.Template.Segment
import Scaffold.Template.Residual

/-!
# The two stages

The first stage fails only for want of a value (`BaseFile.render_eq_ok`), the second only for a
token that it does not know (`Residual.exists_resolve_eq_ok_iff`, `Residual.finish_eq_ok_iff`).
Where the source of a base file and the values of its slots are templates, the first stage is a
sequence of passes with the fragments (`BaseFile.render_text`), and the second, behind its check of
the names, a sequence of passes with the names of an entity (`Residual.resolve_text`).
-/

namespace Scaffold

theorem mem_tokenNames_iff {name text : String} :
    name ∈ tokenNames text ↔ name.toList ∈ Template.findTokens text.toList := by
  rw [tokenNames, List.mem_map]
  constructor
  · rintro ⟨cs, hcs, rfl⟩
    rwa [String.toList_ofList]
  · intro h
    exact ⟨_, h, String.ofList_toList⟩

theorem count_tokenNames (name text : String) :
    (tokenNames text).count name = (Template.findTokens text.toList).count name.toList := by
  have hname : name = String.ofList name.toList := String.ofList_toList.symm
  rw [tokenNames, hname, List.count_map_of_injective _ _ (fun _ _ h => String.ofList_injective h),
    ← hname]

/-! ### When a stage gives a result -/

/-- The value of a slot, the empty one if it has none. -/
def Filling.value (filling : Filling) (s : Slot) : String := (filling.value? s).getD ""

/-- A text with slots filled one after the other. -/
def Filling.fill (filling : Filling) (slots : List Slot) (text : String) : String :=
  slots.foldl (fun text s => replaced s.token (filling.value s) text) text

theorem Filling.fill_cons (filling : Filling) (s : Slot) (slots : List Slot) (text : String) :
    filling.fill (s :: slots) text = filling.fill slots (replaced s.token (filling.value s) text) := rfl

theorem BaseFile.render_eq_ok {file : BaseFile} {filling : Filling}
    (h : ∀ s ∈ file.slots, (filling.value? s).isSome) (source : String) :
    file.render source filling = .ok ⟨filling.fill file.slots source⟩ := by
  simp only [render]
  generalize hs : file.slots = slots at h
  clear hs
  induction slots generalizing source with
  | nil => rfl
  | cons s slots ih =>
    obtain ⟨value, hvalue⟩ := Option.isSome_iff_exists.1 (h s (by simp))
    have hs : filling.value s = value := by rw [Filling.value, hvalue, Option.getD_some]
    simp only [List.foldlM_cons, hvalue, Filling.fill_cons, hs]
    exact ih _ fun r hr => h r (by simp [hr])

theorem BaseFile.exists_render_eq_ok {file : BaseFile} {filling : Filling}
    (h : ∀ s ∈ file.slots, (filling.value? s).isSome) (source : String) :
    ∃ residual, file.render source filling = .ok residual := ⟨_, render_eq_ok h source⟩

namespace Residual

variable {residual : Residual} {file : ContainedPath}

theorem exists_resolve_eq_ok_iff {e : Entity} {app : String} :
    (∃ content, residual.resolve e app file = .ok content) ↔
      ∀ name ∈ tokenNames residual.text, (NameCode.ofName? name).isSome := by
  rw [resolve]
  cases hfind : (tokenNames residual.text).find? fun name => (NameCode.ofName? name).isNone with
  | none =>
    refine iff_of_true ⟨_, rfl⟩ fun name hname => ?_
    simpa [Option.isSome_iff_ne_none] using List.find?_eq_none.1 hfind name hname
  | some token =>
    refine iff_of_false (fun ⟨_, h⟩ => nomatch h) fun h => ?_
    have hnone := List.find?_some hfind
    have hsome := h token (List.mem_of_find?_eq_some hfind)
    rw [Option.isNone_iff_eq_none.1 hnone] at hsome
    cases hsome

theorem finish_eq_ok_iff {content : String} :
    residual.finish file = .ok content ↔
      tokenNames residual.text = [] ∧ residual.text = content := by
  rw [finish]
  cases tokenNames residual.text <;> simp

end Residual

/-! ### The stages on templates -/

namespace Template

theorem isIdentifier_slot (s : Slot) : isIdentifier s.name.toList := by cases s <;> decide

theorem isIdentifier_code (c : NameCode) : isIdentifier c.name.toList := by cases c <;> decide

@[simp] theorem toList_text (t : Template) : t.text.toList = t.chars := String.toList_ofList

theorem tokenNames_text (t : Template) : tokenNames t.text = t.names.map String.ofList := by
  rw [tokenNames, toList_text, findTokens_chars]

theorem replaced_text {name : String} (h : isIdentifier name.toList) (t u : Template) :
    replaced (delimited name) u.text t.text = (t.substitute (single name.toList u)).text := by
  rw [replaced, toList_delimited, toList_text, toList_text, replaceAll_chars h, text]

/-- The passes that fill slots with fragments. -/
def slotPasses (fragment : Slot → Template) (slots : List Slot) : List (List Char × Template) :=
  slots.map fun s => (s.name.toList, fragment s)

/-- The passes that put names for name codes. -/
def codePasses (value : NameCode → Template) (codes : List NameCode) :
    List (List Char × Template) :=
  codes.map fun c => (c.name.toList, value c)

end Template

open Template

/-- Replacing one token after the other in a template by templates. -/
theorem foldl_replaced_delimited {α : Type} {name value : α → String} {template : α → Template}
    (hname : ∀ a, isIdentifier (name a).toList) {l : List α}
    (h : ∀ a ∈ l, value a = (template a).text) (t : Template) :
    l.foldl (fun text a => replaced (delimited (name a)) (value a) text) t.text =
      (t.passes (l.map fun a => ((name a).toList, template a))).text := by
  induction l generalizing t with
  | nil => rfl
  | cons a l ih =>
    rw [List.foldl_cons, h a (by simp), replaced_text (hname a), ih fun b hb => h b (by simp [hb])]
    rfl

/-- Filling the slots of a template with templates. -/
theorem BaseFile.render_text {file : BaseFile} {filling : Filling} {fragment : Slot → Template}
    (h : ∀ s ∈ file.slots, filling.value? s = some (fragment s).text) (t : Template) :
    file.render t.text filling = .ok ⟨(t.passes (slotPasses fragment file.slots)).text⟩ := by
  have hvalue : ∀ s ∈ file.slots, filling.value s = (fragment s).text := fun s hs => by
    rw [Filling.value, h s hs, Option.getD_some]
  have hfill : filling.fill file.slots t.text = (t.passes (slotPasses fragment file.slots)).text :=
    foldl_replaced_delimited isIdentifier_slot hvalue t
  rw [render_eq_ok fun s hs => by rw [h s hs]; rfl, hfill]

/-- Replacing the name codes of a template by templates. -/
theorem foldl_replaced_text {e : Entity} {app : String} {value : NameCode → Template}
    (h : ∀ c : NameCode, (value c).text = c.value e app) (codes : List NameCode) (t : Template) :
    codes.foldl (fun text code => replaced code.token (code.value e app) text) t.text =
      (t.passes (codePasses value codes)).text :=
  foldl_replaced_delimited isIdentifier_code (fun c _ => (h c).symm) t

/-- Whether a name belongs to no name code. -/
def NameCode.unknown (name : List Char) : Bool := (NameCode.ofName? (String.ofList name)).isNone

theorem Residual.resolve_text {e : Entity} {app : String} {value : NameCode → Template}
    (h : ∀ c : NameCode, (value c).text = c.value e app) (t : Template) (file : ContainedPath) :
    (Residual.mk t.text).resolve e app file =
      match t.names.find? NameCode.unknown with
      | some name => .error (.unresolvedToken file.display (String.ofList name))
      | none => .ok (t.passes (codePasses value NameCode.all)).text := by
  have hfind : (tokenNames t.text).find? (fun name => (NameCode.ofName? name).isNone) =
      (t.names.find? NameCode.unknown).map String.ofList := by
    rw [tokenNames_text, List.find?_map]
    rfl
  simp only [Residual.resolve, hfind, foldl_replaced_text h]
  cases t.names.find? NameCode.unknown <;> rfl

end Scaffold
