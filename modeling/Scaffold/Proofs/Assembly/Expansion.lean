import Scaffold.Proofs.Assembly.Location
import Scaffold.Proofs.BaseCode.Bundled
import Scaffold.Proofs.Fragment.Relation
import Scaffold.Proofs.Fragment.Spelling
import Scaffold.Proofs.Template.Expansion

/-!
# Modules expanded in one walk

`Module.expansion` says what the files of an entity hold without a word of stages or passes: each is
its template, walked over once, with the names of the entity for its name codes and fragments, each
with those names put in by itself, for its slots. Where the base files are templates and the names
are plain, `Module.assemble` gives just this.
-/

namespace Scaffold

/-- The fragments that belong into a slot, one after the other. -/
def Slot.fragments (p : Project) (e : Entity) : Slot → List String
  | headerFields => e.listedFields.map fun f => (Fragment.column e f).header
  | listFields => e.listedFields.map fun f => (Fragment.column e f).body
  | formFields => e.fields.filterMap Fragment.input?
  | foreignSelectsFields => (e.parents.filterMap p.entity?).map Fragment.parentSelect
  | injectOtherServices => e.parents.map Fragment.injectedService
  | otherServices => e.parents.map Fragment.boundService
  | getForeignObjects => e.parents.map Fragment.fetchFunction
  | foreignFunctionsCall => e.parents.map Fragment.fetchCall
  | states => p.entities.map Fragment.routeStates
  | menuItems => p.entities.map Fragment.menuEntry
  | insertScripts => p.entities.map Fragment.scriptIncludes

/-- A fragment with the names of its entity put in. -/
def Fragment.named (e : Entity) (fragment : String) : String :=
  String.ofList <| Text.replaceTokens
    [(NameCode.singular.token.toList, e.singular.toList),
      (NameCode.plural.token.toList, e.name.toList)] fragment.toList

/-- What stands in a slot of a file of an entity. -/
def Slot.expansion (p : Project) (e : Entity) (s : Slot) : String :=
  String.join ((s.fragments p e).map (Fragment.named e))

/-- The value of a token in the file of an entity. -/
def Model.tokenValue? (p : Project) (e : Entity) (model : Model) : String → Option String :=
  (BaseFile.model model).tokenValue? (Slot.expansion p e) (·.value e p.camelName)

/-- The module of an entity, from the templates of its files and from their paths. -/
def Module.expansion (p : Project) (e : Entity) (templates : Model → Template)
    (paths : Model → ContainedPath) : Except ProjectError Module := do
  let files ← Model.all.mapM fun model => do
    let content ← ((templates model).expand (model.tokenValue? p e)).mapError
      fun token => .unresolvedToken (paths model).display token
    return ⟨model, paths model, content⟩
  return ⟨e, files, Relations.unresolvedParents p e, (Fragment.withoutInput e).map (·.name)⟩

open Template (Spells passes codePasses)

/-! ### Fragments -/

theorem Slot.spells_fragments {p : Project} {e : Entity} (hp : ∀ r ∈ p.entities, r.HasPlainNames)
    (he : e.IsPlain) (s : Slot) : ∀ fragment ∈ s.fragments p e, Spells Fragment.isOwn fragment := by
  intro fragment h
  have hlisted : ∀ f ∈ e.listedFields, f.IsPlain := fun f hf => he.fields f (List.mem_filter.1 hf).1
  cases s <;> simp only [fragments, List.mem_map, List.mem_filterMap] at h
  case headerFields =>
    obtain ⟨f, hf, rfl⟩ := h
    exact Fragment.spells_header (hlisted f hf) e
  case listFields =>
    obtain ⟨f, hf, rfl⟩ := h
    exact Fragment.spells_body (hlisted f hf) he.toHasPlainNames
  case formFields =>
    obtain ⟨f, hf, hinput⟩ := h
    exact Fragment.spells_input? (he.fields f hf) hinput
  case foreignSelectsFields =>
    obtain ⟨parent, ⟨name, -, hfind⟩, rfl⟩ := h
    exact Fragment.spells_parentSelect (hp parent (List.mem_of_find?_eq_some hfind))
  case injectOtherServices =>
    obtain ⟨parent, hparent, rfl⟩ := h
    exact Fragment.spells_injectedService (he.parents parent hparent)
  case otherServices =>
    obtain ⟨parent, hparent, rfl⟩ := h
    exact Fragment.spells_boundService (he.parents parent hparent)
  case getForeignObjects =>
    obtain ⟨parent, hparent, rfl⟩ := h
    exact Fragment.spells_fetchFunction (he.parents parent hparent)
  case foreignFunctionsCall =>
    obtain ⟨parent, hparent, rfl⟩ := h
    exact Fragment.spells_fetchCall (he.parents parent hparent)
  case states =>
    obtain ⟨r, hr, rfl⟩ := h
    exact Fragment.spells_routeStates (hp r hr)
  case menuItems =>
    obtain ⟨r, hr, rfl⟩ := h
    exact Fragment.spells_menuEntry (hp r hr)
  case insertScripts =>
    obtain ⟨r, hr, rfl⟩ := h
    exact Fragment.spells_scriptIncludes (hp r hr)

/-- The filling of a model puts the fragments of each slot together. -/
theorem Model.value?_filling (p : Project) (e : Entity) (model : Model) :
    ∀ s ∈ (BaseFile.model model).slots,
      (model.filling e (Relations.ofEntity p e)).value? s =
        some (String.join (s.fragments p e)) := by
  intro s hs
  cases model <;> simp only [BaseFile.slots, List.mem_cons, List.not_mem_nil, or_false] at hs
  case editController => rcases hs with rfl | rfl | rfl | rfl <;> rfl
  case listView =>
    rcases hs with rfl | rfl <;>
      simp [filling, Filling.ofList, Filling.set, Slot.fragments, Fragment.columns,
        Function.comp_def]
  case editView => rcases hs with rfl | rfl <;> rfl

theorem NameCode.ofName?_name (c : NameCode) : ofName? (String.ofList c.name.toList) = some c := by
  cases c <;> decide

namespace Fragment

/-- The names of an entity by the names of their codes. -/
def ownNames (e : Entity) : List (List Char × List Char) :=
  [(NameCode.singular.name.toList, e.singular.toList), (NameCode.plural.name.toList, e.name.toList)]

theorem named_eq_filled (e : Entity) (t : Template) :
    named e t.text = String.ofList
      (t.filled fun name => ((ownNames e).lookup name).getD (Template.spelled name)) := by
  have hpairs : [(NameCode.singular.token.toList, e.singular.toList),
      (NameCode.plural.token.toList, e.name.toList)] = Template.spelledPairs (ownNames e) := by
    simp [Template.spelledPairs, ownNames, NameCode.token, Template.toList_delimited]
  rw [named, hpairs, Template.toList_text,
    Template.replaceTokens_chars (by simp [ownNames, Template.isIdentifier_code])]

/-- To put in the own names in one walk is the same as to replace all name codes one by one. -/
theorem named_text {e : Entity} {app : String} {value : NameCode → Template}
    (hcodes : ∀ c : NameCode, (value c).text = c.value e app) (hvalue : ∀ c, (value c).names = [])
    {t : Template} (hown : ∀ name ∈ t.names, isOwn name) :
    named e t.text = (t.passes (codePasses value NameCode.all)).text := by
  have hchars (c : NameCode) : (value c).chars = (c.value e app).toList := by
    rw [← hcodes, Template.toList_text]
  rw [named_eq_filled, Template.text, Template.passes_eq_substitute, Template.chars_substitute]
  refine congrArg String.ofList (Template.filled_congr fun name hname => ?_)
  rw [Template.passValue_codePasses hvalue]
  have h := hown name hname
  simp only [isOwn, Bool.or_eq_true, beq_iff_eq] at h
  rcases h with rfl | rfl
  · rw [NameCode.ofName?_name, Option.map_some, Option.map_some, hchars]
    rfl
  · rw [NameCode.ofName?_name, Option.map_some, Option.map_some, hchars]
    rfl

theorem named_append {e : Entity} {known : List Char → Bool} {s t : String} (hs : Spells known s)
    (ht : Spells known t) : named e (s ++ t) = named e s ++ named e t := by
  obtain ⟨t, rfl, -⟩ := hs
  obtain ⟨u, rfl, -⟩ := ht
  rw [← Template.text_append, named_eq_filled, Template.filled_append, String.ofList_append,
    named_eq_filled, named_eq_filled]

/-- Fragments that stand side by side do not touch each other. -/
theorem named_join {e : Entity} {known : List Char → Bool} {fragments : List String}
    (h : ∀ s ∈ fragments, Spells known s) :
    named e (String.join fragments) = String.join (fragments.map (named e)) := by
  induction fragments with
  | nil => rfl
  | cons s fragments ih =>
    have hrest : ∀ r ∈ fragments, Spells known r := fun r hr => h r (by simp [hr])
    rw [String.join_cons, named_append (h s (by simp)) (.join hrest), ih hrest, List.map_cons,
      String.join_cons]

end Fragment

/-! ### Modules -/

theorem NameCode.isPlainName_value {e : Entity} {app : String} (happ : IsPlainName app)
    (he : e.HasPlainNames) (code : NameCode) : IsPlainName (code.value e app) := by
  cases code with
  | appName => exact happ
  | singular => exact he.singular
  | singularCapital => exact he.singular.capitalized
  | plural => exact he.name
  | pluralCapital => exact he.name.capitalized

/-- The file made from a template is its expansion. -/
theorem Module.file_eq_expand {p : Project} {base : BaseCode} {e : Entity} {model : Model}
    {t : Template} {path : ContainedPath} (hbase : base.content (.model model) = .ok t.text)
    (hpath : model.path e = .ok path) (happ : IsPlainName p.camelName)
    (hp : ∀ r ∈ p.entities, r.HasPlainNames) (he : e.IsPlain) :
    Module.file base p.camelName e (Relations.ofEntity p e) model =
      (do
        let content ← (t.expand (model.tokenValue? p e)).mapError
          fun token => .unresolvedToken path.display token
        return ⟨model, path, content⟩) := by
  have hcodes (c : NameCode) : ∃ u : Template, u.text = c.value e p.camelName ∧ u.names = [] :=
    Spells.exists_closed (.name (c.isPlainName_value happ he.toHasPlainNames))
  choose value hcodes hclosed using hcodes
  have hfragments := Slot.spells_fragments hp he
  choose fragment hfragment hown using fun s : Slot => Spells.join (hfragments s)
  have hslots : ∀ s ∈ (BaseFile.model model).slots,
      (model.filling e (Relations.ofEntity p e)).value? s = some (fragment s).text := by
    intro s hs
    rw [Model.value?_filling p e model s hs, hfragment]
  have hknown : ∀ s, ∀ name ∈ (fragment s).names, NameCode.unknown name = false := by
    intro s name hname
    have h := hown s name hname
    simp only [Fragment.isOwn, Bool.or_eq_true, beq_iff_eq] at h
    rcases h with rfl | rfl <;> decide
  have hexpansion : (fun s => ((fragment s).passes (codePasses value NameCode.all)).text) =
      Slot.expansion p e := by
    funext s
    rw [← Fragment.named_text hcodes hclosed (hown s), hfragment,
      Fragment.named_join (hfragments s), Slot.expansion]
  have hstages := BaseFile.render_resolve_text hknown hslots hcodes hclosed t path
  rw [hexpansion] at hstages
  rw [Module.file, hpath, hbase]
  change ((BaseFile.model model).render t.text _ >>= fun residual =>
    residual.resolve e p.camelName path >>= fun content =>
      pure (⟨model, path, content⟩ : ModuleFile)) = _
  rw [← bind_assoc, hstages]
  rfl

/-- Where the base files of the models are templates and the names that are put in are plain, the
files of an entity are expanded from them in one walk. -/
theorem Module.assemble_eq_expansion {p : Project} {base : BaseCode} {e : Entity}
    {templates : Model → Template} {paths : Model → ContainedPath}
    (hbase : ∀ model, base.content (.model model) = .ok (templates model).text)
    (hpaths : ∀ model : Model, model.path e = .ok (paths model)) (happ : IsPlainName p.camelName)
    (hp : ∀ r ∈ p.entities, r.HasPlainNames) (he : e.IsPlain) :
    Module.assemble p .permissive base e = Module.expansion p e templates paths := by
  have hfile : Module.file base p.camelName e (Relations.ofEntity p e) = fun model => do
      let content ← ((templates model).expand (model.tokenValue? p e)).mapError
        fun token => .unresolvedToken (paths model).display token
      return ⟨model, paths model, content⟩ :=
    funext fun model => Module.file_eq_expand (hbase model) (hpaths model) happ hp he
  rw [Module.assemble, Relations.expand_permissive, Module.expansion, ← hfile]
  rfl

/-- An entity with fields and a parent, over the bundled base code. -/
theorem Module.assemble_eq_expansion_bundled :
    let maker : Entity := ⟨"makers", "maker", [], []⟩
    let car : Entity := ⟨"cars", "car", [⟨"price", .float, true, true, none⟩,
      ⟨"photo", .fileImage, false, true, none⟩], ["makers", "lots"]⟩
    ∃ templates paths,
      (∀ model, Bundled.baseCode.content (.model model) = .ok (templates model).text) ∧
      (∀ model : Model, model.path car = .ok (paths model)) ∧
      Module.assemble ⟨"Garage", none, [maker, car]⟩ .permissive Bundled.baseCode car =
        Module.expansion ⟨"Garage", none, [maker, car]⟩ car templates paths := by
  intro maker car
  have htemplate : ∀ model, ∃ t : Template,
      Bundled.baseCode.content (.model model) = .ok t.text := by
    intro model
    obtain ⟨_, hsource, t, rfl, -⟩ := Bundled.isTemplated_baseCode.model model
    exact ⟨t, hsource⟩
  choose templates hbase using htemplate
  choose paths hpaths using Model.exists_path_eq_ok (e := car) (by decide)
  exact ⟨templates, paths, hbase, hpaths, Module.assemble_eq_expansion hbase hpaths
    (by decide +kernel) (by decide) (by decide)⟩

end Scaffold
