import Scaffold.Fragment.Aggregate
import Scaffold.Fragment.Form
import Scaffold.Fragment.Relation
import Scaffold.Proofs.Template.Spelling

/-!
# Fragments as templates

Where the names of an entity are plain, every fragment made from them is a template, and its only
tokens are the name codes of the entity itself.
-/

namespace Scaffold

open Template (Spells IsLiteral isTemplate)

/-- No string of the field that is put into a fragment holds a character of a mark. -/
structure Field.IsPlain (f : Field) : Prop where
  name : IsPlainName f.name
  component : ∀ c, f.component? = some c → IsPlainName c

/-- Both names of an entity are plain. -/
structure Entity.HasPlainNames (e : Entity) : Prop where
  name : IsPlainName e.name
  singular : IsPlainName e.singular

/-- No string of the entity that is put into a fragment holds a character of a mark. -/
structure Entity.IsPlain (e : Entity) : Prop extends e.HasPlainNames where
  fields : ∀ f ∈ e.fields, f.IsPlain
  parents : ∀ name ∈ e.parents, IsPlainName name

instance : DecidablePred Field.IsPlain := fun f =>
  decidable_of_iff (IsPlainName f.name ∧ ∀ c ∈ f.component?, IsPlainName c)
    ⟨fun h => ⟨h.1, fun c hc => h.2 c hc⟩, fun h => ⟨h.name, fun c hc => h.component c hc⟩⟩

instance : DecidablePred Entity.HasPlainNames := fun e =>
  decidable_of_iff (IsPlainName e.name ∧ IsPlainName e.singular)
    ⟨fun h => ⟨h.1, h.2⟩, fun h => ⟨h.name, h.singular⟩⟩

instance : DecidablePred Entity.IsPlain := fun e =>
  decidable_of_iff
    (e.HasPlainNames ∧ (∀ f ∈ e.fields, f.IsPlain) ∧ ∀ name ∈ e.parents, IsPlainName name)
    ⟨fun h => ⟨h.1, h.2.1, h.2.2⟩, fun h => ⟨h.toHasPlainNames, h.fields, h.parents⟩⟩

theorem IsPlainName.append {s t : String} (hs : IsPlainName s) (ht : IsPlainName t) :
    IsPlainName (s ++ t) := by
  rw [IsPlainName, String.toList_append]
  exact Text.IsPlain.append hs ht

/-- A given string. -/
theorem IsPlainName.literal {cs : List Char}
    (h : cs.all (fun c => !Text.isMark c) = true) : IsPlainName (String.ofList cs) := by
  rw [IsPlainName, String.toList_ofList]
  exact fun c hc => by simpa using List.all_eq_true.1 h c hc

theorem IsPlainName.intercalate {sep : String} {parts : List String} (hsep : IsPlainName sep)
    (h : ∀ s ∈ parts, IsPlainName s) : IsPlainName (sep.intercalate parts) := by
  induction parts with
  | nil =>
    rw [String.intercalate_nil]
    exact Text.IsPlain.nil
  | cons s parts ih =>
    have hs := h s (by simp)
    have ih := ih fun r hr => h r (by simp [hr])
    cases parts with
    | nil => rwa [String.intercalate_singleton]
    | cons r parts =>
      rw [String.intercalate_cons_cons]
      exact (hs.append hsep).append ih

namespace Fragment

/-- Whether a name is one of the name codes that the entity of a fragment is called by. -/
def isOwn (name : List Char) : Bool :=
  name == NameCode.singular.name.toList || name == NameCode.plural.name.toList

theorem spells_singular : Spells isOwn NameCode.singular.token :=
  .token (Template.isIdentifier_code _) (by simp [isOwn])

theorem spells_plural : Spells isOwn NameCode.plural.token :=
  .token (Template.isIdentifier_code _) (by simp [isOwn])

theorem spells_model : Spells isOwn model := Spells.literal (by decide) |>.append spells_singular

/-! ### Inputs -/

theorem isPlainName_requiredMark (f : Field) : IsPlainName (requiredMark f) := by
  rw [requiredMark]
  split <;> exact .literal (by decide)

theorem isPlainName_spaced {parts : List String} (h : ∀ s ∈ parts, IsPlainName s) :
    IsPlainName (spaced parts) :=
  .intercalate (.literal (by decide)) fun s hs => h s (List.mem_filter.1 hs).1

section
variable {f : Field} (hf : f.IsPlain)
include hf

theorem isPlainName_inputType : IsPlainName f.inputType := by
  simp only [Field.inputType]
  split
  · exact hf.component _ ‹_›
  · split <;> exact .literal (by decide)

theorem spells_labeled {input : String} (h : Spells isOwn input) :
    Spells isOwn (labeled f input) :=
  Spells.literal (by decide) |>.andLiteral (by decide) |>.andName hf.name |>.andLiteral (by decide)
    |>.andName hf.name.capitalized |>.andLiteral (by decide) |>.append h |>.andLiteral (by decide)

theorem spells_inputTag {attributes : List String} (h : ∀ a ∈ attributes, IsPlainName a) :
    Spells isOwn (inputTag f attributes) :=
  Spells.literal (by decide) |>.andName (isPlainName_spaced h) |>.andLiteral (by decide)
    |>.append spells_model |>.andLiteral (by decide) |>.andName hf.name |>.andLiteral (by decide)

theorem spells_textInput : Spells isOwn (textInput f) := by
  refine spells_labeled hf (spells_inputTag hf fun a ha => ?_)
  rcases List.mem_pair.1 ha with rfl | rfl
  · exact isPlainName_requiredMark f
  · exact .append (.append (.literal (by decide)) (isPlainName_inputType hf)) (.literal (by decide))

theorem spells_numberInput : Spells isOwn (numberInput f) := by
  refine spells_labeled hf (spells_inputTag hf fun a ha => ?_)
  simp only [List.mem_cons, List.not_mem_nil, or_false] at ha
  rcases ha with rfl | rfl | rfl
  · exact isPlainName_requiredMark f
  · split <;> exact .literal (by decide)
  · exact .literal (by decide)

theorem spells_textAreaInput : Spells isOwn (textAreaInput f) := by
  have hattributes : ∀ a ∈ [requiredMark f, "class=\"form-control\""], IsPlainName a := by
    intro a ha
    rcases List.mem_pair.1 ha with rfl | rfl
    · exact isPlainName_requiredMark f
    · exact .literal (by decide)
  exact spells_labeled hf <|
    Spells.literal (by decide) |>.andName (isPlainName_spaced hattributes) |>.andLiteral (by decide)
      |>.append spells_model |>.andLiteral (by decide) |>.andName hf.name |>.andLiteral (by decide)

theorem spells_fileImageInput : Spells isOwn (fileImageInput f) :=
  Spells.literal (by decide) |>.append spells_model |>.andLiteral (by decide)
    |>.andLiteral (by decide) |>.andName hf.name |>.andLiteral (by decide) |>.andLiteral (by decide)
    |>.andLiteral (by decide) |>.append spells_plural |>.andLiteral (by decide)
    |>.append spells_model |>.andLiteral (by decide) |>.andName hf.name |>.andLiteral (by decide)
    |>.andLiteral (by decide) |>.andName hf.name |>.andLiteral (by decide) |>.andLiteral (by decide)
    |>.andLiteral (by decide)

theorem spells_input? {input : String} (h : input? f = some input) : Spells isOwn input := by
  simp only [input?] at h
  split at h <;> simp only [Option.some.injEq, reduceCtorEq] at h <;> subst h
  · exact spells_textInput hf
  · exact spells_numberInput hf
  · exact spells_textAreaInput hf
  · exact spells_fileImageInput hf

theorem spells_header (e : Entity) : Spells isOwn (column e f).header :=
  Spells.literal (by decide) |>.andName hf.name.capitalized |>.andLiteral (by decide)

/-- The body of a column shows the field between double braces. Behind them stands a name or a dot,
which keeps them apart from a token. -/
theorem spells_body {e : Entity} (he : e.HasPlainNames) : Spells isOwn (column e f).body := by
  have hopen : Spells isOwn ("\t\t\t\t\t<td><span>\x7b\x7b" ++ e.singular ++ ".") := by
    refine .ofLiteral ?_
    have hbehind : IsLiteral (e.singular.toList ++ ['.']) :=
      .of_brace_not_mem (by simpa using he.singular.brace_not_mem)
    have hhead : ∃ d rest, e.singular.toList ++ ['.'] = d :: rest ∧ d ≠ '%' := by
      cases hs : e.singular.toList with
      | nil => exact ⟨'.', [], rfl, by decide⟩
      | cons d rest =>
        refine ⟨d, rest ++ ['.'], rfl, fun hd => he.singular.percent_not_mem ?_⟩
        simp [hs, hd]
    have hcell : IsLiteral "\t\t\t\t\t<td><span>".toList := .of_brace_not_mem (by decide)
    have hbraces : IsLiteral ('{' :: '{' :: (e.singular.toList ++ ['.'])) :=
      (hbehind.cons fun _ => hhead).cons fun _ => ⟨'{', _, rfl, by decide⟩
    have := hcell.append hbraces
    simpa [String.toList_append] using this
  exact hopen.andName hf.name |>.andLiteral (by decide)

end

/-! ### Relations -/

section
variable {known : List Char → Bool} {parent : String} (hp : IsPlainName parent)
include hp

theorem spells_injectedService : Spells known (injectedService parent) :=
  Spells.literal (by decide) |>.andName hp |>.andLiteral (by decide)

theorem spells_boundService : Spells known (boundService parent) :=
  (Spells.name hp).andLiteral (by decide)

theorem spells_fetchCall : Spells known (fetchCall parent) :=
  Spells.literal (by decide) |>.andName hp.capitalized |>.andLiteral (by decide)

theorem spells_fetchFunction : Spells known (fetchFunction parent) := by
  have hgetter : IsPlainName ("get" ++ capitalized parent) :=
    .append (.literal (by decide)) hp.capitalized
  exact Spells.literal (by decide) |>.andName hgetter |>.andLiteral (by decide)
    |>.andLiteral (by decide) |>.andName hp |>.andLiteral (by decide) |>.andName hgetter
    |>.andLiteral (by decide) |>.andLiteral (by decide) |>.andLiteral (by decide) |>.andName hp
    |>.andLiteral (by decide) |>.andLiteral (by decide) |>.andLiteral (by decide)
    |>.andLiteral (by decide)

end

theorem spells_parentSelect {parent : Entity} (hp : parent.HasPlainNames) :
    Spells isOwn (parentSelect parent) :=
  Spells.literal (by decide) |>.andLiteral (by decide) |>.andName hp.singular
    |>.andLiteral (by decide) |>.andName hp.singular.capitalized |>.andLiteral (by decide)
    |>.andLiteral (by decide) |>.andName hp.singular |>.andLiteral (by decide)
    |>.andLiteral (by decide) |>.andName hp.singular |>.andLiteral (by decide)
    |>.andName hp.singular |>.andLiteral (by decide) |>.andName hp.singular
    |>.andLiteral (by decide) |>.andName hp.name |>.andLiteral (by decide) |>.andLiteral (by decide)
    |>.append spells_singular |>.andLiteral (by decide) |>.andName hp.singular
    |>.andLiteral (by decide) |>.andLiteral (by decide) |>.andLiteral (by decide)
    |>.andLiteral (by decide)

/-! ### Blocks of the shared files -/

section
variable {known : List Char → Bool} {e : Entity} (he : e.HasPlainNames)
include he

theorem spells_routeStates : Spells known (routeStates e) :=
  Spells.literal (by decide) |>.andName he.name |>.andLiteral (by decide) |>.andLiteral (by decide)
    |>.andName he.name |>.andLiteral (by decide) |>.andLiteral (by decide) |>.andLiteral (by decide)
    |>.andLiteral (by decide) |>.andName he.name |>.andLiteral (by decide) |>.andName he.name
    |>.andLiteral (by decide) |>.andLiteral (by decide) |>.andName he.name |>.andLiteral (by decide)
    |>.andLiteral (by decide) |>.andLiteral (by decide) |>.andLiteral (by decide)
    |>.andLiteral (by decide) |>.andName he.name |>.andLiteral (by decide) |>.andLiteral (by decide)
    |>.andLiteral (by decide) |>.andLiteral (by decide) |>.andLiteral (by decide) |>.andName he.name
    |>.andLiteral (by decide) |>.andName he.name |>.andLiteral (by decide) |>.andLiteral (by decide)
    |>.andName he.singular |>.andLiteral (by decide) |>.andLiteral (by decide)
    |>.andLiteral (by decide) |>.andLiteral (by decide)

theorem spells_menuEntry : Spells known (menuEntry e) :=
  Spells.literal (by decide) |>.andName he.name |>.andLiteral (by decide)
    |>.andName he.name.capitalized |>.andLiteral (by decide)

theorem spells_scriptIncludes : Spells known (scriptIncludes e) := by
  have hstem : Spells known ("\t<script src=\"/app/components/" ++ e.name ++ "/" ++ e.name) :=
    Spells.literal (by decide) |>.andName he.name |>.andLiteral (by decide) |>.andName he.name
  exact Spells.literal (by decide) |>.andName he.name.capitalized |>.andLiteral (by decide)
    |>.append hstem |>.andLiteral (by decide) |>.append hstem |>.andLiteral (by decide)
    |>.append hstem |>.andLiteral (by decide)

end

end Fragment

end Scaffold
