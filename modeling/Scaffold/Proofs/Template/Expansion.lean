import Scaffold.Proofs.Template.Rendering

/-!
# Templates expanded in one walk

`Template.expand` goes over the segments of a template once, from left to right. It copies literals,
writes the value of every token that has one, and stops at the first that has none. The two stages
of rendering come to the same, though they replace one name after the other in the whole text
(`BaseFile.render_resolve_text`): the fragments of the first stage hold no tokens but name codes,
and the names of the second hold no tokens at all.
-/

namespace Scaffold

namespace Template

/-- The walk of `expand` over segments. -/
def expandSegments (value? : String → Option String) : List Segment → Except String String
  | [] => .ok ""
  | .literal text :: rest => (String.ofList text ++ ·) <$> expandSegments value? rest
  | .token name :: rest =>
    match value? (String.ofList name) with
    | some value => (value ++ ·) <$> expandSegments value? rest
    | none => .error (String.ofList name)

/-- The text of a template with the values of its tokens, or the name of the first token that has no
value. -/
def expand (value? : String → Option String) (t : Template) : Except String String :=
  expandSegments value? t.segments

theorem expand_eq (value? : String → Option String) (t : Template) :
    t.expand value? =
      match t.names.find? fun name => (value? (String.ofList name)).isNone with
      | some name => .error (String.ofList name)
      | none => .ok (String.ofList
          (t.filled fun name => ((value? (String.ofList name)).getD "").toList)) := by
  simp only [expand, names, filled]
  generalize t.segments = segments
  induction segments with
  | nil => rfl
  | cons s segments ih =>
    cases s with
    | literal text =>
      simp only [expandSegments, List.filterMap_cons, Segment.name?, ih, List.flatMap_cons,
        Segment.filled]
      cases List.find? (fun name => (value? (String.ofList name)).isNone)
        (segments.filterMap Segment.name?) with
      | some name => rfl
      | none =>
        rw [String.ofList_append]
        rfl
    | token name =>
      simp only [expandSegments, List.filterMap_cons, Segment.name?, List.find?_cons, ih,
        List.flatMap_cons, Segment.filled]
      cases h : value? (String.ofList name) with
      | none => rfl
      | some value =>
        simp only [Option.isNone_some, Option.getD_some]
        cases List.find? (fun name => (value? (String.ofList name)).isNone)
          (segments.filterMap Segment.name?) with
        | some name => rfl
        | none =>
          rw [String.ofList_append, String.ofList_toList]
          rfl

/-! ### Values of passes -/

theorem lookup_map {α : Type} (key : α → List Char) (value : α → Template) (l : List α)
    (name : List Char) :
    (l.map fun a => (key a, value a)).lookup name =
      (l.find? fun a => key a == name).map value := by
  induction l with
  | nil => rfl
  | cons a l ih =>
    by_cases h : key a = name
    · simp [h]
    · have hbeq : (name == key a) = false := by simpa using Ne.symm h
      simp [List.lookup_cons, h, hbeq, ih]

theorem beq_ofList (s : String) (name : List Char) :
    (s == String.ofList name) = (s.toList == name) := by
  rw [Bool.eq_iff_iff, beq_iff_eq, beq_iff_eq]
  constructor
  · rintro rfl
    exact String.toList_ofList
  · rintro rfl
    exact String.ofList_toList.symm

theorem unknown_slot (s : Slot) : NameCode.unknown s.name.toList = true := by
  cases s <;> decide

section
variable {fragment : Slot → Template} {slots : List Slot} {value : NameCode → Template}

/-- Fragments that hold no tokens but name codes hold no token of a slot. -/
theorem passValue_slotPasses
    (hfragment : ∀ s, ∀ name ∈ (fragment s).names, NameCode.unknown name = false)
    (name : List Char) :
    passValue (slotPasses fragment slots) name =
      (slots.find? fun s => s.name == String.ofList name).map fragment := by
  have hclosed : ∀ p ∈ slotPasses fragment slots, ∀ n ∈ p.2.names,
      n ∉ (slotPasses fragment slots).map Prod.fst := by
    intro p hp n hn hmem
    obtain ⟨s, -, rfl⟩ := List.mem_map.1 hp
    rw [slotPasses, List.map_map] at hmem
    obtain ⟨r, -, rfl⟩ := List.mem_map.1 hmem
    have := hfragment s _ hn
    simp [unknown_slot] at this
  simp only [beq_ofList]
  rw [passValue_eq_lookup hclosed, slotPasses, lookup_map]

theorem passValue_codePasses (hvalue : ∀ c, (value c).names = []) (name : List Char) :
    passValue (codePasses value NameCode.all) name =
      (NameCode.ofName? (String.ofList name)).map value := by
  have hclosed : ∀ p ∈ codePasses value NameCode.all, ∀ n ∈ p.2.names,
      n ∉ (codePasses value NameCode.all).map Prod.fst := by
    intro p hp n hn
    obtain ⟨c, -, rfl⟩ := List.mem_map.1 hp
    simp [hvalue] at hn
  simp only [NameCode.ofName?, beq_ofList]
  rw [passValue_eq_lookup hclosed, codePasses, lookup_map]

end

end Template

open Template

/-- The value of a token in a file with the given slots: the fragment of a slot with the name codes
in it replaced, or the name that a name code stands for. -/
def BaseFile.tokenValue? (file : BaseFile) (fragment : Slot → String) (code : NameCode → String)
    (name : String) : Option String :=
  ((file.slots.find? fun s => s.name == name).map fragment).or ((NameCode.ofName? name).map code)

/-- The value of a token where the fragments and the names are templates. -/
def BaseFile.templateValue? (file : BaseFile) (fragment : Slot → Template)
    (value : NameCode → Template) : String → Option String :=
  file.tokenValue? (fun s => ((fragment s).passes (codePasses value NameCode.all)).text)
    fun c => (value c).text

section
variable {file : BaseFile} {fragment : Slot → Template} {value : NameCode → Template}
  (hfragment : ∀ s, ∀ name ∈ (fragment s).names, NameCode.unknown name = false)
include hfragment

variable (value) in
/-- The first stage leaves those names unknown that have no value. -/
theorem BaseFile.find?_unknown (t : Template) :
    (t.passes (slotPasses fragment file.slots)).names.find? NameCode.unknown =
      t.names.find? fun name =>
        (file.templateValue? fragment value (String.ofList name)).isNone := by
  rw [passes_eq_substitute, names_substitute, List.find?_flatMap, List.find?_eq_findSome?_guard]
  refine congrArg (List.findSome? · t.names) (funext fun name => ?_)
  rw [passValue_slotPasses hfragment, Option.guard, templateValue?, tokenValue?]
  cases file.slots.find? fun s => s.name == String.ofList name with
  | some s => simpa using hfragment s
  | none => cases h : NameCode.ofName? (String.ofList name) <;> simp [NameCode.unknown, h]

/-- Where every token has a value, both stages together put it there. -/
theorem BaseFile.chars_passes (hvalue : ∀ c, (value c).names = []) {t : Template}
    (h : ∀ name ∈ t.names, (file.templateValue? fragment value (String.ofList name)).isSome) :
    ((t.passes (slotPasses fragment file.slots)).passes (codePasses value NameCode.all)).chars =
      t.filled fun name =>
        ((file.templateValue? fragment value (String.ofList name)).getD "").toList := by
  rw [← passes_append, passes_eq_substitute, chars_substitute]
  refine filled_congr fun name hn => ?_
  have hsome := h name hn
  rw [templateValue?, tokenValue?] at hsome ⊢
  rw [passValue_append, passValue_slotPasses hfragment, passValue_codePasses hvalue]
  cases hs : file.slots.find? fun s => s.name == String.ofList name with
  | some s => simp
  | none =>
    cases hc : NameCode.ofName? (String.ofList name) with
    | some c => simp
    | none => simp [hs, hc] at hsome

/-- The two stages together expand a template in one walk. -/
theorem BaseFile.render_resolve_text {filling : Filling} {e : Entity} {app : String}
    (hslots : ∀ s ∈ file.slots, filling.value? s = some (fragment s).text)
    (hcodes : ∀ c : NameCode, (value c).text = c.value e app)
    (hvalue : ∀ c, (value c).names = []) (t : Template) (path : ContainedPath) :
    (file.render t.text filling >>= fun residual => residual.resolve e app path) =
      (t.expand (file.tokenValue?
        (fun s => ((fragment s).passes (codePasses value NameCode.all)).text)
        (·.value e app))).mapError fun name => .unresolvedToken path.display name := by
  have hcodes' : (fun c : NameCode => c.value e app) = fun c => (value c).text :=
    funext fun c => (hcodes c).symm
  rw [render_text hslots, hcodes']
  change (Residual.mk _).resolve e app path =
    (t.expand (file.templateValue? fragment value)).mapError _
  rw [Residual.resolve_text hcodes, find?_unknown value hfragment, expand_eq]
  cases h : t.names.find? fun name =>
      (file.templateValue? fragment value (String.ofList name)).isNone with
  | some name => rfl
  | none =>
    have hall : ∀ name ∈ t.names,
        (file.templateValue? fragment value (String.ofList name)).isSome := by
      simpa [Option.isSome_iff_ne_none] using List.find?_eq_none.1 h
    simp only [text, chars_passes hfragment hvalue hall]
    rfl

end

end Scaffold
