import Scaffold.Proofs.Assembly.Expansion
import Scaffold.Proofs.Assembly.Forgery
import Scaffold.Proofs.Template.Divided
import Scaffold.Proofs.Template.Fields

/-!
# What the files of an entity hold

A framed piece of a model stands in the file made from it, with the names of the entity and the
fragments put in (`Module.infix_content`), and a framed text without tokens that stands in a
fragment stands in the file too (`Slot.infix_expansion`). Any piece is counted in those fields of
the model that may hold it (`Module.occurrences_content`). In an application the file stands where
its model says (`Application.exists_file`).
-/

namespace Scaffold

open Text (occurrences occurrencesIn replaceTokens)
open Template (Spells IsFramed Segment Trace continuesIdentifier fields isIdentifier spelledPairs)

/-! ### Values of tokens -/

namespace Model

/-- The characters that are put for a token into the file of an entity. -/
def tokenChars (p : Project) (e : Entity) (model : Model) (name : List Char) : List Char :=
  ((model.tokenValue? p e (String.ofList name)).getD "").toList

variable (p : Project) (e : Entity) (model : Model)

theorem tokenChars_code (code : NameCode) :
    model.tokenChars p e code.name.toList = (code.value e p.camelName).toList := by
  have hvalue : model.tokenValue? p e code.name = some (code.value e p.camelName) := by
    cases model <;> cases code <;> rfl
  rw [tokenChars, String.ofList_toList, hvalue]
  rfl

theorem tokenChars_slot {slot : Slot} (h : slot ∈ (BaseFile.model model).slots) :
    model.tokenChars p e slot.name.toList = (slot.expansion p e).toList := by
  have hvalue : model.tokenValue? p e slot.name = some (slot.expansion p e) := by
    cases model <;> cases slot <;> first
      | rfl
      | exact absurd h (by decide)
  rw [tokenChars, String.ofList_toList, hvalue]
  rfl

end Model

/-! ### Tokens replaced at once -/

namespace Model

/-- The names of the tokens that a model may use. -/
def tokenNames (model : Model) : List (List Char) :=
  (BaseFile.model model).slots.map (·.name.toList) ++ NameCode.all.map (·.name.toList)

theorem mem_tokenNames_iff {model : Model} {name : List Char} :
    name ∈ model.tokenNames ↔ (BaseFile.model model).knows name := by
  simp [tokenNames, BaseFile.knows]

/-- The values of the tokens in the file of an entity. -/
def tokenValues (p : Project) (e : Entity) (model : Model) : List (List Char × List Char) :=
  model.tokenNames.map fun name => (name, model.tokenChars p e name)

theorem isIdentifier_of_mem_tokenValues {p : Project} {e : Entity} {model : Model} :
    ∀ v ∈ model.tokenValues p e, isIdentifier v.1 := by
  intro v hv
  obtain ⟨name, hname, rfl⟩ := List.mem_map.1 hv
  have hall : ∀ name ∈ model.tokenNames, isIdentifier name := by cases model <;> decide
  exact hall name hname

theorem replaceTokens_tokenValues (p : Project) (e : Entity) {model : Model} {t : Template}
    (ht : ∀ name ∈ t.names, (BaseFile.model model).knows name) :
    replaceTokens (spelledPairs (model.tokenValues p e)) t.chars = t.filled (model.tokenChars p e) := by
  rw [Template.replaceTokens_chars isIdentifier_of_mem_tokenValues]
  refine Template.filled_congr fun name hname => ?_
  rw [tokenValues, List.lookup_graph _ (mem_tokenNames_iff.2 (ht name hname)), Option.getD_some]

end Model

/-! ### Fragments -/

/-- A framed text without tokens stays in a fragment when the names of the entity are put in. -/
theorem Fragment.infix_named {known : List Char → Bool} (e : Entity) {text fragment : String}
    (hframed : IsFramed text.toList) (htext : Spells (fun _ => false) text)
    (hfragment : Spells known fragment) (h : text.toList <:+: fragment.toList) :
    text.toList <:+: (named e fragment).toList := by
  obtain ⟨t, rfl, hclosed⟩ := htext.exists_closed
  obtain ⟨u, rfl, -⟩ := hfragment
  rw [Template.toList_text] at hframed h
  rw [Template.toList_text] at h
  -- without tokens the text is filled by itself, whatever is put in
  have hself : t.chars = t.filled fun name =>
      ((ownNames e).lookup name).getD (Template.spelled name) := by
    rw [Template.chars_eq_filled]
    exact Template.filled_congr fun name hname => by simp [hclosed] at hname
  rw [Template.toList_text, named_eq_filled, String.toList_ofList, hself]
  exact Template.filled_infix hframed h _

theorem infix_of_eq_append {s a t b : String} (h : s = a ++ t ++ b) : t.toList <:+: s.toList := by
  rw [h, String.toList_append, String.toList_append]
  exact List.infix_append _ _ _

theorem toList_infix_join {s : String} {strings : List String} (h : s ∈ strings) :
    s.toList <:+: (String.join strings).toList := by
  obtain ⟨before, behind, rfl⟩ := List.append_of_mem h
  rw [String.toList_join, List.flatMap_append, List.flatMap_cons, ← List.append_assoc]
  exact List.infix_append _ _ _

/-- What stands in a fragment of a slot stands in the slot. -/
theorem Slot.infix_expansion (slot : Slot) {p : Project} {e : Entity}
    (hp : ∀ r ∈ p.entities, r.HasPlainNames) (he : e.IsPlain) {text fragment : String}
    (hframed : IsFramed text.toList) (htext : Spells (fun _ => false) text)
    (hfragment : fragment ∈ slot.fragments p e) (h : text.toList <:+: fragment.toList) :
    text.toList <:+: (slot.expansion p e).toList := by
  have hspells := slot.spells_fragments hp he fragment hfragment
  have hnamed := Fragment.infix_named e hframed htext hspells h
  exact hnamed.trans (toList_infix_join (List.mem_map_of_mem hfragment))

/-! ### Files -/

/-- The fields of a source that concern a piece with the given trace, in segments. -/
structure BaseFile.Leads (file : BaseFile) (source : String) (kept : List Char) (trace : Trace)
    (places : List (List Segment)) : Prop where
  fields : (fields kept source.toList).filter trace.concerns = places.map (·.flatMap Segment.chars)
  wellFormed : ∀ place ∈ places, ∀ s ∈ place, s.WellFormed
  knows : ∀ place ∈ places, ∀ name ∈ place.filterMap Segment.name?, file.knows name

namespace Module

section
variable {p : Project} {base : BaseCode} {e : Entity} {model : Model} (happ : IsPlainName p.camelName)
  (hp : ∀ r ∈ p.entities, r.HasPlainNames) (he : e.IsPlain) {f : ModuleFile}
  (hf : file base p.camelName e (Relations.ofEntity p e) model = .ok f)
include happ hp he hf

/-- A file is its template with the values of the tokens. -/
theorem toList_content {t : Template} (hbase : base.content (.model model) = .ok t.text) :
    f.content.toList = t.filled (model.tokenChars p e) := by
  obtain ⟨path, hpath⟩ : ∃ path, model.path e = .ok path := by
    simp only [file, bind_eq_ok_iff] at hf
    obtain ⟨path, hpath, -⟩ := hf
    exact ⟨path, hpath⟩
  rw [file_eq_expand hbase hpath happ hp he] at hf
  obtain ⟨content, hcontent, hf⟩ := bind_eq_ok_iff.1 hf
  cases hf
  rw [mapError_eq_ok_iff, Template.expand_eq] at hcontent
  split at hcontent
  · cases hcontent
  · cases hcontent
    exact String.toList_ofList

theorem infix_content {source : String} {known : List Char → Bool}
    (hbase : base.content (.model model) = .ok source) (hsource : Spells known source)
    {piece : Template} (hframed : IsFramed piece.chars) (hpiece : piece.chars <:+: source.toList) :
    piece.filled (model.tokenChars p e) <:+: f.content.toList := by
  obtain ⟨t, rfl, -⟩ := hsource
  rw [Template.toList_text] at hpiece
  rw [toList_content happ hp he hf hbase]
  exact Template.filled_infix hframed hpiece _

theorem occurrences_content {source : String} (hbase : base.content (.model model) = .ok source)
    (hsource : Spells (BaseFile.model model).knows source) {kept : List Char} {trace : Trace}
    {places : List (List Segment)} (hplaces : (BaseFile.model model).Leads source kept trace places)
    {piece : List Char} (hpiece : ∀ c ∈ piece, continuesIdentifier c ∨ c ∈ kept)
    (hfits : trace.Fits (model.tokenValues p e) piece) :
    occurrences piece f.content.toList =
      occurrencesIn piece (places.map (·.flatMap (Segment.filled (model.tokenChars p e)))) := by
  obtain ⟨t, rfl, ht⟩ := hsource
  have hfields := hplaces.fields
  rw [Template.toList_text] at hfields
  rw [toList_content happ hp he hf hbase, ← Model.replaceTokens_tokenValues p e ht,
    Template.occurrences_eq_of_concerns Model.isIdentifier_of_mem_tokenValues
      (fun c hc => Template.cuts_eq_false (hpiece c hc)) hfits, hfields, List.map_map]
  refine congrArg (occurrencesIn piece) (List.map_congr_left fun place h => ?_)
  exact Model.replaceTokens_tokenValues p e (t := ⟨place, hplaces.wellFormed place h⟩)
    (hplaces.knows place h)

end

/-- The module of an entity holds the file of every model. -/
theorem exists_file_of_assemble {p : Project} {policy : RelationPolicy} {base : BaseCode} {e : Entity}
    {m : Module} (h : assemble p policy base e = .ok m) (model : Model) :
    ∃ f ∈ m.files, file base p.camelName e (Relations.ofEntity p e) model = .ok f ∧
      m.content? model = some f.content := by
  obtain ⟨f, hf, hfile⟩ := exists_mem_of_mapM_eq_ok (files_of_assemble h) model.mem_all
  have hdistinct : (m.files.map (·.model)).Nodup := by
    rw [(of_assemble_eq_ok h).2.1]
    decide
  have hfind : m.files.find? (fun f => f.model == model) = some f :=
    (find?_key_eq_some_iff hdistinct).2 ⟨hf, (of_file_eq_ok hfile).1⟩
  refine ⟨f, hf, hfile, ?_⟩
  rw [content?, hfind]
  rfl

end Module

namespace Application

/-- The file of an entity stands in the application where its model says. -/
theorem exists_file {p : Project} {policy : RelationPolicy} {base : BaseCode} {a : Application}
    (ha : assemble p policy base = .ok a) {e : Entity} (he : e ∈ p.entities) :
    ∃ m, Module.assemble p policy base e = .ok m ∧ ∀ model, ∃ f,
      Module.file base p.camelName e (Relations.ofEntity p e) model = .ok f ∧
        m.content? model = some f.content ∧
          a.tree.content? ⟨model.location e⟩ = some f.content := by
  obtain ⟨-, shared, modules, -, hmodules, hvalid, rfl⟩ := assemble_eq_ok_iff.1 ha
  obtain ⟨m, hmem, hm⟩ := exists_mem_of_mapM_eq_ok hmodules he
  refine ⟨m, hm, fun model => ?_⟩
  obtain ⟨f, hf, hfile, hcontent⟩ := Module.exists_file_of_assemble hm model
  refine ⟨f, hfile, hcontent, (content?_treeOf_eq_some_iff hvalid).2 ⟨(f.path, f.content), ?_, ?_, rfl⟩⟩
  · refine List.mem_append_right _ (List.mem_flatMap.2 ⟨m, hmem, ?_⟩)
    exact List.mem_map_of_mem hf
  · rw [← (Module.of_file_eq_ok hfile).2]
    rfl

end Application

end Scaffold
