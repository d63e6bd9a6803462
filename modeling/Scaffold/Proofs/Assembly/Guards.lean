import Scaffold.Proofs.Assembly.Bundled
import Scaffold.Proofs.Assembly.Forgery
import Scaffold.Proofs.Assembly.Shared

/-!
# What an assembly asks of a project

An assembly over a complete base code fails for three reasons only: a name leads upward, two files
come to stand in the same place or in each other, or a token is left over where a file is finished.
A project without these fits the base code (`Project.Fits`), and just such projects have an
application (`Application.exists_assemble_iff_fits`). Names without marks leave no token, so that a
project with such names fits by its places alone (`Project.IsPlain.fits_iff`).
-/

namespace Scaffold

open Scaffold.Path (Apart IsName)

/-- An aggregate with the names of a project put in and its slot filled. -/
def Aggregate.residual (p : Project) (base : BaseCode) (aggregate : Aggregate) :
    Except ProjectError Residual := do
  let source ← base.content (.aggregate aggregate)
  (BaseFile.aggregate aggregate).render (p.putNames source) (aggregate.filling p.entities)

/-- A project that no guard of an assembly stops. -/
structure Project.Fits (p : Project) (base : BaseCode) : Prop where
  /-- No name leads upward. -/
  contained : ∀ e ∈ p.entities, ['.', '.'] ∉ Path.segments e.name.toList
  /-- No two files belong in the same place, and none in another. -/
  apart : (Application.places p base).Pairwise Apart
  /-- All tokens of a model whose slots are filled are name codes. -/
  models : ∀ e ∈ p.entities, ∀ model residual, Module.residual p base e model = .ok residual →
    ∀ name ∈ tokenNames residual.text, (NameCode.ofName? name).isSome
  /-- An aggregate whose slot is filled has no tokens. -/
  aggregates : ∀ aggregate residual, Aggregate.residual p base aggregate = .ok residual →
    tokenNames residual.text = []

/-! ### Modules -/

namespace Module

variable {p : Project} {base : BaseCode} {e : Entity}

theorem exists_file_eq_ok_iff {model : Model} {source : String}
    (hsource : base.content (.model model) = .ok source) :
    (∃ f, file base p.camelName e (Relations.ofEntity p e) model = .ok f) ↔
      ['.', '.'] ∉ Path.segments e.name.toList ∧
      ∀ residual, Module.residual p base e model = .ok residual →
        ∀ name ∈ tokenNames residual.text, (NameCode.ofName? name).isSome := by
  have hslots : ∀ s ∈ (BaseFile.model model).slots,
      ((model.filling e (Relations.ofEntity p e)).value? s).isSome := fun s hs => by
    rw [model.value?_filling p e s hs]
    rfl
  obtain ⟨residual, hrender⟩ := BaseFile.exists_render_eq_ok hslots source
  have hresidual : Module.residual p base e model = .ok residual := by
    rw [Module.residual, hsource]
    exact hrender
  rw [← Model.exists_path_eq_ok_iff e model]
  constructor
  · rintro ⟨f, hf⟩
    simp only [file, bind_eq_ok_iff] at hf
    obtain ⟨path, hpath, source', hsource', residual', hrender', content, hcontent, -⟩ := hf
    cases hsource.symm.trans hsource'
    refine ⟨⟨path, hpath⟩, fun r hr => ?_⟩
    cases hresidual.symm.trans hr
    cases hrender.symm.trans hrender'
    exact Residual.exists_resolve_eq_ok_iff.1 ⟨content, hcontent⟩
  · rintro ⟨⟨path, hpath⟩, htokens⟩
    obtain ⟨content, hcontent⟩ : ∃ content, residual.resolve e p.camelName path = .ok content :=
      Residual.exists_resolve_eq_ok_iff.2 (htokens residual hresidual)
    refine ⟨⟨model, path, content⟩, ?_⟩
    simp only [file, bind_eq_ok_iff]
    exact ⟨path, hpath, source, hsource, residual, hrender, content, hcontent, rfl⟩

theorem exists_assemble_permissive_iff
    (hcomplete : ∀ model, ∃ source, base.content (.model model) = .ok source) :
    (∃ m, assemble p .permissive base e = .ok m) ↔
      ['.', '.'] ∉ Path.segments e.name.toList ∧
      ∀ model residual, Module.residual p base e model = .ok residual →
        ∀ name ∈ tokenNames residual.text, (NameCode.ofName? name).isSome := by
  have hfiles : (∃ m, assemble p .permissive base e = .ok m) ↔
      ∀ model ∈ Model.all, ∃ f, file base p.camelName e (Relations.ofEntity p e) model = .ok f := by
    rw [← exists_mapM_eq_ok_iff]
    simp only [assemble, Relations.expand_permissive, bind_eq_ok_iff]
    constructor
    · rintro ⟨m, _, ⟨⟩, files, hfiles, -⟩
      exact ⟨files, hfiles⟩
    · rintro ⟨files, hfiles⟩
      exact ⟨_, _, rfl, files, hfiles, rfl⟩
  choose source hsource using hcomplete
  rw [hfiles]
  -- whether the name leads upward does not depend on the model
  constructor
  · intro h
    have hstep (model : Model) := (exists_file_eq_ok_iff (hsource model)).1 (h model model.mem_all)
    exact ⟨(hstep .services).1, fun model => (hstep model).2⟩
  · rintro ⟨hname, htokens⟩ model -
    exact (exists_file_eq_ok_iff (hsource model)).2 ⟨hname, htokens model⟩

end Module

/-! ### Shared files -/

/-- The blocks go into a text that has the names already. -/
theorem Aggregate.residual_eq_ok {base : BaseCode} {aggregate : Aggregate} {source : String}
    (h : base.content (.aggregate aggregate) = .ok source) (p : Project) :
    aggregate.residual p base = .ok ⟨replaced aggregate.slot.token
      (String.join (p.entities.map aggregate.block)) (p.putNames source)⟩ := by
  rw [residual, h]
  exact aggregate.render_filling p.entities (p.putNames source)

namespace Application

variable {p : Project} {base : BaseCode}

theorem exists_sharedFile_eq_ok_iff {f : ContainedPath × String} (hf : f ∈ base.sharedFiles) :
    (∃ r, sharedFile p f.1 f.2 = .ok r) ↔
      ∀ aggregate, f.1.aggregate? = some aggregate →
        ∀ residual, aggregate.residual p base = .ok residual → tokenNames residual.text = [] := by
  rw [exists_sharedFile_iff_tokenNames]
  refine forall₂_congr fun aggregate haggregate => ?_
  have hsource : base.content (.aggregate aggregate) = .ok f.2 :=
    BaseCode.content_aggregate_eq_ok_iff.2 ⟨f.1, hf, haggregate⟩
  have hnamed : namedSource p f.1 f.2 = p.putNames f.2 :=
    if_pos (ContainedPath.takesAppName_of_aggregate? haggregate)
  rw [Aggregate.residual_eq_ok hsource, hnamed]
  simp only [Except.ok.injEq, forall_eq']

theorem forall_sharedFiles_iff :
    (∀ f ∈ base.sharedFiles, ∃ r, sharedFile p f.1 f.2 = .ok r) ↔
      ∀ aggregate residual, Aggregate.residual p base aggregate = .ok residual →
        tokenNames residual.text = [] := by
  constructor
  · intro h aggregate residual hresidual
    obtain ⟨source, hsource, -⟩ := bind_eq_ok_iff.1 hresidual
    obtain ⟨path, hmem, hpath⟩ := BaseCode.content_aggregate_eq_ok_iff.1 hsource
    exact (exists_sharedFile_eq_ok_iff hmem).1 (h _ hmem) aggregate hpath residual hresidual
  · intro h f hf
    exact (exists_sharedFile_eq_ok_iff hf).2 fun aggregate _ => h aggregate

/-- A project has an application exactly if the base code is complete and the project fits it. -/
theorem exists_assemble_iff_fits (hne : ∀ f ∈ base.files.entries, f.1.components ≠ []) :
    (∃ a, assemble p .permissive base = .ok a) ↔
      (∀ file, ∃ source, base.content file = .ok source) ∧ p.Fits base := by
  have hshared : ∀ f ∈ base.sharedFiles, f.1.path.components ≠ [] :=
    fun f hf => hne (f.1.path, f.2) (BaseCode.mem_sharedFiles.1 hf).1
  rw [exists_assemble_eq_ok_iff hshared, BaseCode.ensureComplete_eq_ok_iff]
  refine and_congr_right fun hcomplete => ?_
  have hmodules (e : Entity) := Module.exists_assemble_permissive_iff (p := p) (e := e)
    fun model => hcomplete (.model model)
  simp only [forall_sharedFiles_iff, hmodules]
  constructor
  · rintro ⟨haggregates, hmodels, -, hapart⟩
    exact ⟨fun e he => (hmodels e he).1, hapart, fun e he => (hmodels e he).2, haggregates⟩
  · intro h
    obtain ⟨source, hindex⟩ := hcomplete (.aggregate .index)
    obtain ⟨path, hmem, -⟩ := BaseCode.content_aggregate_eq_ok_iff.1 hindex
    refine ⟨h.aggregates, fun e he => ⟨h.contained e he, h.models e he⟩, ?_, h.apart⟩
    exact List.ne_nil_of_mem (List.mem_append_left _ (List.mem_map_of_mem hmem))

end Application

/-! ### Plain names -/

section
variable {p : Project} {base : BaseCode} (hp : p.IsPlain) (hbase : base.IsTemplated)
include hp hbase

/-- The fragments of plain names bring no token into a model. -/
theorem Project.IsPlain.isSome_ofName?_of_residual {e : Entity} (he : e ∈ p.entities)
    (hcontained : ['.', '.'] ∉ Path.segments e.name.toList) (model : Model) :
    ∀ residual, Module.residual p base e model = .ok residual →
      ∀ name ∈ tokenNames residual.text, (NameCode.ofName? name).isSome := by
  obtain ⟨source, hsource, -⟩ := hbase.model model
  have hpath : ∃ path, model.path e = .ok path := (Model.exists_path_eq_ok_iff e model).2 hcontained
  have hfile : ∃ f, Module.file base p.camelName e (Relations.ofEntity p e) model = .ok f :=
    Module.exists_file_eq_ok hbase hp.camelName hp.hasPlainNames (hp.entities e he) hpath
  exact ((Module.exists_file_eq_ok_iff hsource).1 hfile).2

/-- Nor do they bring one into a file that gathers blocks. -/
theorem Project.IsPlain.tokenNames_eq_nil_of_residual (aggregate : Aggregate) (residual : Residual)
    (h : aggregate.residual p base = .ok residual) : tokenNames residual.text = [] :=
  Application.forall_sharedFiles_iff.1 (Application.exists_sharedFile_eq_ok hbase hp) aggregate
    residual h

/-- So of a project with plain names only the places are asked. -/
theorem Project.IsPlain.fits_iff : p.Fits base ↔
    (∀ e ∈ p.entities, ['.', '.'] ∉ Path.segments e.name.toList) ∧
      (Application.places p base).Pairwise Apart := by
  constructor
  · intro h
    exact ⟨h.contained, h.apart⟩
  · rintro ⟨hcontained, hapart⟩
    exact {
      contained := hcontained
      apart := hapart
      models := fun e he => hp.isSome_ofName?_of_residual hbase he (hcontained e he)
      aggregates := hp.tokenNames_eq_nil_of_residual hbase }

end

/-! ### The bundled base code -/

namespace Bundled

variable {p : Project}

theorem exists_assemble_iff_fits :
    (∃ a, Application.assemble p .permissive baseCode = .ok a) ↔ p.Fits baseCode :=
  (Application.exists_assemble_iff_fits components_ne_nil_of_mem_entries).trans
    (and_iff_right fun _ => ⟨_, content_baseCode _⟩)

/-- Plain names that can be told apart fit. -/
theorem fits (hp : p.IsPlain) (hdistinct : (p.entities.map (·.name)).Nodup)
    (hnames : ∀ e ∈ p.entities, IsName e.name ∧ e.name ≠ "home") : p.Fits baseCode := by
  refine (hp.fits_iff isTemplated_baseCode).2 ⟨fun e he => ?_, pairwise_places hdistinct hnames⟩
  have hpath := Model.exists_path_eq_ok (hnames e he).1 .services
  exact (Model.exists_path_eq_ok_iff e .services).1 hpath

/-- The place of an entity called like the start page is taken. -/
theorem not_fits_of_home {e : Entity} (he : e ∈ p.entities) (hname : e.name = "home") :
    ¬ p.Fits baseCode := by
  intro h
  have hstart : ("app/components/home/home.controller.js", homeController) ∈ files := by
    simp [files]
  have hmodel : Path.startsWith ⟨"app/components/home/home.controller.js"⟩ BaseCode.modelDirectory =
      false := by decide +kernel
  have hshared : (⟨_, files_contained _ hstart⟩, homeController) ∈ baseCode.sharedFiles :=
    BaseCode.mem_sharedFiles.2 ⟨mem_entries_baseCode.2 hstart, hmodel⟩
  have hplace : Path.components ⟨Model.listController.location e⟩ =
      Path.components ⟨"app/components/home/home.controller.js"⟩ := by
    rw [Model.components_location (hname ▸ by decide) .listController, hname]
    decide +kernel
  obtain ⟨-, -, hacross⟩ := List.pairwise_append.1 h.apart
  have hapart : Apart (Path.components ⟨"app/components/home/home.controller.js"⟩)
      (Path.components ⟨Model.listController.location e⟩) :=
    hacross _ (List.mem_map.2 ⟨_, hshared, rfl⟩) _
      (List.mem_flatMap.2 ⟨e, he, List.mem_map.2 ⟨.listController, by decide, rfl⟩⟩)
  rw [hplace] at hapart
  exact hapart.1 List.prefix_rfl

/-- The tokens of an aggregate with the names and the blocks put in, from the characters of
its source. -/
theorem tokenNames_aggregate (p : Project) (aggregate : Aggregate) {cs : List Char}
    (hs : (source (.aggregate aggregate)).toList = cs) :
    tokenNames (replaced aggregate.slot.token (String.join (p.entities.map aggregate.block))
        (p.putNames (source (.aggregate aggregate)))) =
      (Template.findTokens (Text.replaceAll aggregate.slot.token.toList
        (String.join (p.entities.map aggregate.block)).toList
        (Text.replaceTokens [("angularAppName".toList, p.camelName.toList),
          ("appName".toList, p.name.toList)] cs))).map String.ofList := by
  rw [tokenNames, replaced, String.toList_ofList, Project.putNames, String.toList_ofList, hs]

theorem not_fits_of_findTokens (aggregate : Aggregate) {cs : List Char}
    (hs : (source (.aggregate aggregate)).toList = cs)
    (h : Template.findTokens (Text.replaceAll aggregate.slot.token.toList
      (String.join (p.entities.map aggregate.block)).toList
      (Text.replaceTokens [("angularAppName".toList, p.camelName.toList),
        ("appName".toList, p.name.toList)] cs)) ≠ []) : ¬ p.Fits baseCode := by
  intro hfits
  have hnone := hfits.aggregates aggregate _
    (Aggregate.residual_eq_ok (content_baseCode (.aggregate aggregate)) p)
  rw [tokenNames_aggregate p aggregate hs, List.map_eq_nil_iff] at hnone
  exact h hnone

end Bundled

end Scaffold
