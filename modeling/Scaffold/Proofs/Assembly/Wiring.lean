import Scaffold.Proofs.Assembly.Content
import Scaffold.Proofs.Assembly.Progress
import Scaffold.Proofs.Fragment.Service

/-!
# Parents wired into the edit controller

Where all names are words, the edit controller of an entity injects the service of a parent as often
as the entity lists it, once more where the entity is its own parent, and it declares a fetch
function for each time that a parent of that capitalized name is listed (`Bundled.parents_wired`).
Both are counted field by field: few fields of the base file can hold a name in quotes or the head
of a function.
-/

namespace Scaffold

open Text (occurrences occurrencesIn)
open Template (Trace continuesIdentifier fields)

/-! ### Names -/

/-- The names of an entity and of its parents are words. -/
structure Entity.HasWordNames (e : Entity) : Prop where
  name : IsWordName e.name
  singular : IsWordName e.singular
  parents : ∀ parent ∈ e.parents, IsWordName parent

instance : DecidablePred Entity.HasWordNames := fun e =>
  decidable_of_iff
    (IsWordName e.name ∧ IsWordName e.singular ∧ ∀ parent ∈ e.parents, IsWordName parent)
    ⟨fun h => ⟨h.1, h.2.1, h.2.2⟩, fun h => ⟨h.name, h.singular, h.parents⟩⟩

/-- The names of a project that are put into modules are words. -/
structure Project.HasWordNames (p : Project) : Prop where
  camelName : IsWordName p.camelName
  entities : ∀ e ∈ p.entities, e.HasWordNames

instance : DecidablePred Project.HasWordNames := fun p =>
  decidable_of_iff (IsWordName p.camelName ∧ ∀ e ∈ p.entities, e.HasWordNames)
    ⟨fun h => ⟨h.1, h.2⟩, fun h => ⟨h.camelName, h.entities⟩⟩

theorem Entity.HasWordNames.hasPlainNames {e : Entity} (h : e.HasWordNames) : e.HasPlainNames :=
  ⟨h.name.isPlain, h.singular.isPlain⟩

theorem Project.HasWordNames.hasPlainNames {p : Project} (h : p.HasWordNames) :
    ∀ r ∈ p.entities, r.HasPlainNames := fun r hr => (h.entities r hr).hasPlainNames

theorem NameCode.isWordName_value {e : Entity} {app : String} (happ : IsWordName app)
    (he : e.HasWordNames) (code : NameCode) : IsWordName (code.value e app) := by
  cases code with
  | appName => exact happ
  | singular => exact he.singular
  | singularCapital => exact he.singular.capitalized
  | plural => exact he.name
  | pluralCapital => exact he.name.capitalized

/-! ### Slots of relations -/

/-- Fragments without tokens stand in a file as they are. -/
theorem Fragment.named_eq_self {e : Entity} {fragment : String} (h : '%' ∉ fragment.toList) :
    named e fragment = fragment := by
  have hmark (code : NameCode) : '%' ∈ code.token.toList := by cases code <;> decide
  rw [named, Text.replaceTokens_eq_self, String.ofList_toList]
  intro pair hpair _ hstands
  rcases List.mem_pair.1 hpair with rfl | rfl
  · exact h (hstands.mem (hmark .singular))
  · exact h (hstands.mem (hmark .plural))

namespace Slot

/-- The signs that the fragments of the edit controller have besides words. -/
def signs : Slot → List Char
  | injectOtherServices => ['\'', ',', ' ']
  | otherServices => [',', ' ']
  | getForeignObjects => Fragment.fetchSigns
  | foreignFunctionsCall => ['\t', '(', ')', ';', '\n']
  | _ => []

/-- The names of the slots of the edit controller whose fragments have the given sign. -/
def holders (sign : Char) : List (List Char) :=
  ((BaseFile.model .editController).slots.filter fun s => s.signs.contains sign).map (·.name.toList)

variable {p : Project} {e : Entity} (he : e.HasWordNames) {s : Slot}
  (hs : s ∈ (BaseFile.model .editController).slots)
include he hs

theorem isMadeOf_fragments : ∀ fragment ∈ s.fragments p e, IsMadeOf s.signs fragment := by
  intro fragment h
  simp only [BaseFile.slots, List.mem_cons, List.not_mem_nil, or_false] at hs
  rcases hs with rfl | rfl | rfl | rfl <;> obtain ⟨parent, hparent, rfl⟩ := List.mem_map.1 h
  · exact Fragment.isMadeOf_injectedService (he.parents parent hparent)
  · exact Fragment.isMadeOf_boundService (he.parents parent hparent)
  · exact Fragment.isMadeOf_fetchFunction (he.parents parent hparent)
  · exact Fragment.isMadeOf_fetchCall (he.parents parent hparent)

theorem expansion_eq_join : s.expansion p e = String.join (s.fragments p e) := by
  have hself : ∀ fragment ∈ s.fragments p e, Fragment.named e fragment = fragment := by
    intro fragment h
    refine Fragment.named_eq_self ((isMadeOf_fragments he hs fragment h).not_mem rfl ?_)
    simp only [BaseFile.slots, List.mem_cons, List.not_mem_nil, or_false] at hs
    rcases hs with rfl | rfl | rfl | rfl <;> decide
  rw [expansion, List.map_congr_left hself, List.map_id']

theorem isMadeOf_expansion : IsMadeOf s.signs (s.expansion p e) := by
  rw [expansion_eq_join he hs]
  exact .join (isMadeOf_fragments he hs)

end Slot

/-- A sign comes with fragments that have it only. -/
theorem Model.mem_holders_of_mem_tokenValues {p : Project} {e : Entity} (happ : IsWordName p.camelName)
    (he : e.HasWordNames) {sign : Char} (hsign : continuesIdentifier sign = false) :
    ∀ v ∈ editController.tokenValues p e, sign ∈ v.2 → v.1 ∈ Slot.holders sign := by
  intro v hv hmem
  obtain ⟨name, hname, rfl⟩ := List.mem_map.1 hv
  rcases List.mem_append.1 hname with hname | hname
  · obtain ⟨s, hs, rfl⟩ := List.mem_map.1 hname
    rw [tokenChars_slot p e editController hs] at hmem
    have hsigns : sign ∈ s.signs := by
      by_contra h
      exact (Slot.isMadeOf_expansion he hs).not_mem hsign h hmem
    exact List.mem_map_of_mem (List.mem_filter.2 ⟨hs, by simpa using hsigns⟩)
  · obtain ⟨code, -, rfl⟩ := List.mem_map.1 hname
    rw [tokenChars_code] at hmem
    exact absurd hmem ((code.isWordName_value happ he).not_mem hsign)

/-! ### The base file -/

open Template (Segment)

namespace Bundled

/-- The fields of a source whose characters are given. -/
theorem leads_of_toList_eq {file : BaseFile} {source : String} {kept cs : List Char} {trace : Trace}
    {places : List (List Segment)} (hs : source.toList = cs)
    (hfields : (fields kept cs).filter trace.concerns = places.map (·.flatMap Segment.chars))
    (hplaces : ∀ place ∈ places, ∀ s ∈ place, s.WellFormed)
    (hknows : ∀ place ∈ places, ∀ name ∈ place.filterMap Segment.name?, file.knows name) :
    file.Leads source kept trace places :=
  ⟨hs ▸ hfields, hplaces, hknows⟩

/-- What is known of the name of a service in quotes. -/
def dependencyTrace : Trace := ⟨[('\'', Slot.holders '\'')], "Service'".toList⟩

/-- The fields of the edit controller that may hold such a name. -/
def dependencyPlaces : List (List Segment) := [
  [.literal ['\''], .token NameCode.appName.name.toList, .literal ['\'']],
  [.literal ['\''], .token NameCode.singular.name.toList, .literal "EditController'".toList],
  [.token Slot.injectOtherServices.name.toList, .literal ['\''], .token NameCode.plural.name.toList,
    .literal "Service'".toList],
  [.token NameCode.plural.name.toList, .literal ['\'']]]

set_option maxRecDepth 4000 in
theorem leads_dependencyPlaces : (BaseFile.model .editController).Leads
    (source (.model .editController)) ['\''] dependencyTrace dependencyPlaces := by
  apply leads_of_toList_eq
  case hs =>
    repeat apply toList_append_ofList
    exact String.toList_ofList
  case hknows => decide
  all_goals decide +kernel

/-- What is known of the head of a fetch function. -/
def fetchTrace : Trace := ⟨[(' ', Slot.holders ' '), ('(', Slot.holders '(')], "function get".toList⟩

/-- The field of the edit controller that may hold such a head. -/
def fetchPlaces : List (List Segment) := [[.token Slot.getForeignObjects.name.toList]]

set_option maxRecDepth 4000 in
theorem leads_fetchPlaces : (BaseFile.model .editController).Leads
    (source (.model .editController)) [' ', '(', ')'] fetchTrace fetchPlaces := by
  apply leads_of_toList_eq
  case hs =>
    repeat apply toList_append_ofList
    exact String.toList_ofList
  case hknows => decide
  all_goals decide +kernel

section
variable {p : Project} {e : Entity} (happ : IsWordName p.camelName) (he : e.HasWordNames) (n : String)
include happ he

theorem fits_dependencyTrace :
    dependencyTrace.Fits (Model.editController.tokenValues p e) (Fragment.dependency n).toList where
  mem := by simp [dependencyTrace, Fragment.dependency]
  holders := by
    simp only [dependencyTrace, List.mem_singleton, forall_eq]
    exact Model.mem_holders_of_mem_tokenValues happ he rfl
  part := infix_of_eq_append (a := "'" ++ n) (b := "") (by
    simp only [Fragment.dependency, String.append_assoc, String.append_empty])

theorem fits_fetchTrace :
    fetchTrace.Fits (Model.editController.tokenValues p e) (Fragment.fetchHeader n).toList where
  mem := by simp [fetchTrace, Fragment.fetchHeader]
  holders := by
    simp only [fetchTrace, List.mem_pair, forall_eq_or_imp, forall_eq]
    exact ⟨Model.mem_holders_of_mem_tokenValues happ he rfl,
      Model.mem_holders_of_mem_tokenValues happ he rfl⟩
  part := infix_of_eq_append (a := "") (b := capitalized n ++ "()") (by
    simp only [Fragment.fetchHeader, String.append_assoc, String.empty_append])

omit happ in
/-- The parents' services stand one after the other before the own one. -/
theorem map_filled_dependencyPlaces :
    dependencyPlaces.map (·.flatMap (Segment.filled (Model.editController.tokenChars p e))) = [
      Fragment.quoted p.camelName.toList,
      Fragment.quoted (e.singular ++ "EditController").toList,
      (e.parents.map fun name => (name ++ "Service").toList).flatMap
        (fun w => Fragment.quoted w ++ [',', ' ']) ++ Fragment.quoted (e.name ++ "Service").toList,
      e.name.toList ++ ['\'']] := by
  have hslot : Slot.injectOtherServices ∈ (BaseFile.model .editController).slots := by decide
  have hservices : (Slot.injectOtherServices.expansion p e).toList =
      (e.parents.map fun name => (name ++ "Service").toList).flatMap
        fun w => Fragment.quoted w ++ [',', ' '] := by
    rw [Slot.expansion_eq_join he hslot, Slot.fragments, String.toList_join, List.flatMap_map,
      List.flatMap_map]
    exact List.flatMap_congr fun name _ => Fragment.toList_injectedService name
  unfold dependencyPlaces
  simp only [List.map_cons, List.map_nil, List.flatMap_cons, List.flatMap_nil, Segment.filled,
    Model.tokenChars_code, Model.tokenChars_slot p e _ hslot, hservices]
  simp [Fragment.quoted, NameCode.value]

variable {n} (hn : IsWordName n)
include hn

theorem occurrences_dependencyPlaces :
    occurrencesIn (Fragment.dependency n).toList
        (dependencyPlaces.map (·.flatMap (Segment.filled (Model.editController.tokenChars p e)))) =
      e.parents.count n + (if e.name = n then 1 else 0) +
        (if p.camelName = n ++ "Service" then 1 else 0) := by
  have hservice : IsWordName "Service" := by decide
  have hcontroller : IsWordName "EditController" := by decide
  have hquote {name : String} (h : IsWordName name) : '\'' ∉ name.toList := h.not_mem rfl
  have hword := hquote (hn.append hservice)
  have hcomma : ',' ∉ (n ++ "Service").toList := (hn.append hservice).not_mem rfl
  have hwords : ∀ w ∈ e.parents.map (fun name => (name ++ "Service").toList), '\'' ∉ w :=
    List.forall_mem_map.2 fun name hname => hquote ((he.parents name hname).append hservice)
  have hinjective : Function.Injective fun name : String => (name ++ "Service").toList :=
    fun a b h => (String.append_left_inj _).1 (String.toList_inj.1 h)
  have hcount := List.count_map_of_injective e.parents _ hinjective n
  have hother : n ++ "Service" ≠ e.singular ++ "EditController" := by
    intro h
    have hlast := congrArg (·.toList.getLast?) h
    simp at hlast
  rw [map_filled_dependencyPlaces he, Fragment.toList_dependency]
  simp only [occurrencesIn]
  rw [Fragment.occurrences_quoted hword (hquote happ),
    Fragment.occurrences_quoted hword (hquote (he.singular.append hcontroller)),
    Fragment.occurrences_dependencies hword hcomma (by simp) hwords, hcount,
    Fragment.occurrences_quoted hword (hquote (he.name.append hservice)),
    Fragment.occurrences_quoted_concat (hquote he.name)]
  simp only [String.toList_inj, hother, if_false, String.append_left_inj,
    eq_comm (a := n ++ "Service")]
  omega

omit happ in
theorem occurrences_fetchPlaces :
    occurrencesIn (Fragment.fetchHeader n).toList
        (fetchPlaces.map (·.flatMap (Segment.filled (Model.editController.tokenChars p e)))) =
      (e.parents.map capitalized).count (capitalized n) := by
  have hslot : Slot.getForeignObjects ∈ (BaseFile.model .editController).slots := by decide
  have hfilled : fetchPlaces.map (·.flatMap (Segment.filled (Model.editController.tokenChars p e))) =
      [(String.join (e.parents.map Fragment.fetchFunction)).toList] := by
    unfold fetchPlaces
    simp only [List.map_cons, List.map_nil, List.flatMap_cons, List.flatMap_nil, Segment.filled,
      Model.tokenChars_slot p e _ hslot, Slot.expansion_eq_join he hslot, List.append_nil]
    rfl
  rw [hfilled, occurrencesIn, occurrencesIn, Nat.add_zero]
  exact Fragment.occurrences_fetchFunctions hn.capitalized he.parents

end

end Bundled

/-! ### Edit controllers -/

/-- The entity without its fields. -/
def Entity.bare (e : Entity) : Entity := { e with fields := [] }

theorem Entity.HasWordNames.bare {e : Entity} (h : e.HasWordNames) : e.bare.HasWordNames :=
  ⟨h.name, h.singular, h.parents⟩

theorem Entity.HasWordNames.isPlain {e : Entity} (h : e.HasWordNames)
    (hfields : ∀ f ∈ e.fields, f.IsPlain) : e.IsPlain :=
  ⟨h.hasPlainNames, hfields, fun parent hparent => (h.parents parent hparent).isPlain⟩

/-- The edit controller shows no fields. -/
theorem Module.file_editController_bare (base : BaseCode) (app : String) (p : Project) (e : Entity) :
    file base app e.bare (Relations.ofEntity p e.bare) .editController =
      file base app e (Relations.ofEntity p e) .editController := by
  cases e
  rfl

theorem Model.exists_path_eq_ok_of_isWordName {e : Entity} (h : IsWordName e.name) (model : Model) :
    ∃ path, model.path e = .ok path := by
  rw [exists_path_eq_ok_iff, Path.segments_of_slash_not_mem (h.not_mem rfl), List.mem_singleton]
  intro hup
  exact h.not_mem (c := '.') rfl (hup ▸ by simp)

namespace Bundled

section
variable {p : Project} (hp : p.HasWordNames) {e : Entity} (he : e ∈ p.entities)
include hp he

theorem occurrences_editController {f : ModuleFile}
    (hf : Module.file baseCode p.camelName e (Relations.ofEntity p e) .editController = .ok f)
    {n : String} (hn : IsWordName n) :
    occurrences (Fragment.dependency n).toList f.content.toList =
        e.parents.count n + (if e.name = n then 1 else 0) +
          (if p.camelName = n ++ "Service" then 1 else 0) ∧
      occurrences (Fragment.fetchHeader n).toList f.content.toList =
        (e.parents.map capitalized).count (capitalized n) := by
  have hwords := (hp.entities e he).bare
  have hplain := hwords.isPlain (by simp [Entity.bare])
  rw [← Module.file_editController_bare] at hf
  constructor
  · rw [Module.occurrences_content hp.camelName.isPlain hp.hasPlainNames hplain hf (content_baseCode _)
      (spells_model _) leads_dependencyPlaces (Fragment.isMadeOf_dependency hn)
      (fits_dependencyTrace hp.camelName hwords n), occurrences_dependencyPlaces hp.camelName hwords hn]
    rfl
  · rw [Module.occurrences_content hp.camelName.isPlain hp.hasPlainNames hplain hf (content_baseCode _)
      (spells_model _) leads_fetchPlaces (Fragment.isMadeOf_fetchHeader hn.capitalized)
      (fits_fetchTrace hp.camelName hwords n), occurrences_fetchPlaces hwords hn]
    rfl

theorem exists_editController : ∃ f,
    Module.file baseCode p.camelName e (Relations.ofEntity p e) .editController = .ok f := by
  have hwords := (hp.entities e he).bare
  have hpath := Model.exists_path_eq_ok_of_isWordName hwords.name .editController
  obtain ⟨f, hf⟩ := Module.exists_file_eq_ok isTemplated_baseCode hp.camelName.isPlain hp.hasPlainNames
    (hwords.isPlain (by simp [Entity.bare])) hpath
  exact ⟨f, Module.file_editController_bare _ _ p e ▸ hf⟩

theorem exists_module_of_hasWordNames (hfields : ∀ f ∈ e.fields, f.IsPlain) :
    ∃ m, Module.assemble p .permissive baseCode e = .ok m :=
  have hwords := hp.entities e he
  Module.exists_assemble_eq_ok isTemplated_baseCode hp.camelName.isPlain hp.hasPlainNames
    (hwords.isPlain hfields) (Model.exists_path_eq_ok_of_isWordName hwords.name)

/-- The edit controller of an entity injects the service of a parent as often as the entity
lists it, and once more if the parent is the entity itself; an application with the name of
the service adds a further token. It declares the fetch function of a parent as often as the
entity lists one of the same capitalized name. So both are there exactly once just for another
entity that is listed once, whatever the case of its first letter, and whose service has not
the name of the application. -/
theorem parents_wired :
    ∃ f, Module.file baseCode p.camelName e (Relations.ofEntity p e) .editController = .ok f ∧
      (∀ policy m, Module.assemble p policy baseCode e = .ok m →
        m.content? .editController = some f.content) ∧
      ((∀ f ∈ e.fields, f.IsPlain) → ∃ m, Module.assemble p .permissive baseCode e = .ok m) ∧
      ∀ n ∈ e.parents,
        let injected := occurrences (Fragment.dependency n).toList f.content.toList
        let declared := occurrences (Fragment.fetchHeader n).toList f.content.toList
        injected = e.parents.count n + (if e.name = n then 1 else 0) +
          (if p.camelName = n ++ "Service" then 1 else 0) ∧
        declared = (e.parents.map capitalized).count (capitalized n) ∧
        (injected = 1 ∧ declared = 1 ↔ e.name ≠ n ∧ p.camelName ≠ n ++ "Service" ∧
          (e.parents.map capitalized).count (capitalized n) = 1) := by
  obtain ⟨f, hf⟩ := exists_editController hp he
  refine ⟨f, hf, fun policy m hm => ?_, exists_module_of_hasWordNames hp he, ?_⟩
  · obtain ⟨f', -, hf', hcontent⟩ := Module.exists_file_of_assemble hm .editController
    cases hf.symm.trans hf'
    exact hcontent
  · intro n hn injected declared
    obtain ⟨hinjected, hdeclared⟩ :=
      occurrences_editController hp he hf ((hp.entities e he).parents n hn)
    refine ⟨hinjected, hdeclared, ?_⟩
    have hpositive : 0 < e.parents.count n := List.count_pos_iff.2 hn
    have hle : e.parents.count n ≤ (e.parents.map capitalized).count (capitalized n) :=
      List.count_le_count_map
    simp only [injected, declared, hinjected, hdeclared]
    by_cases hself : e.name = n <;> by_cases happ : p.camelName = n ++ "Service" <;>
      simp only [hself, happ, if_true, if_false, ne_eq, not_true, not_false_eq_true, true_and,
        false_and, iff_false] <;> omega

end

/-- A car that belongs to a maker, whose own module has another name. -/
theorem parents_wired_of_cars :
    let maker : Entity := ⟨"makers", "maker", [], []⟩
    let car : Entity := ⟨"cars", "car", [⟨"price", .float, true, true, none⟩], ["makers", "lots"]⟩
    let garage : Project := ⟨"Garage", some "garage", [maker, car]⟩
    ∃ m content, Module.assemble garage .permissive baseCode car = .ok m ∧
      m.content? .editController = some content ∧
      occurrences "'makersService'".toList content.toList = 1 ∧
      occurrences "function getMakers()".toList content.toList = 1 := by
  intro maker car garage
  obtain ⟨f, -, hcontent, hmodule, hcounts⟩ := parents_wired (p := garage) (by decide)
    (e := car) (by decide)
  obtain ⟨m, hm⟩ := hmodule (by decide)
  obtain ⟨-, -, honce⟩ := hcounts "makers" (by decide)
  exact ⟨m, f.content, hm, hcontent _ _ hm, honce.2 (by decide)⟩

/-- An owner that is listed twice is injected and fetched twice, and an entity that is its own
parent is injected once more by its base file. -/
theorem exists_parent_wired_twice :
    let owner : Entity := ⟨"owners", "owner", [], []⟩
    let car : Entity := ⟨"cars", "car", [], ["owners", "owners", "cars"]⟩
    let garage : Project := ⟨"Garage", some "garage", [owner, car]⟩
    garage.HasWordNames ∧ ∃ m content, Module.assemble garage .permissive baseCode car = .ok m ∧
      m.content? .editController = some content ∧
      occurrences "'ownersService'".toList content.toList = 2 ∧
      occurrences "function getOwners()".toList content.toList = 2 ∧
      occurrences "'carsService'".toList content.toList = 2 := by
  intro owner car garage
  have hp : garage.HasWordNames := by decide
  have he : car ∈ garage.entities := by decide
  obtain ⟨m, hm⟩ := exists_module_of_hasWordNames hp he (by decide)
  obtain ⟨f, -, hf, hcontent⟩ := Module.exists_file_of_assemble hm .editController
  obtain ⟨howners, hfetched⟩ := occurrences_editController hp he hf (n := "owners") (by decide)
  obtain ⟨hcars, -⟩ := occurrences_editController hp he hf (n := "cars") (by decide)
  refine ⟨hp, m, f.content, hm, hcontent, ?_, ?_, ?_⟩
  · exact howners.trans (by decide)
  · exact hfetched.trans (by decide)
  · exact hcars.trans (by decide)

end Bundled

end Scaffold
