import Scaffold.Proofs.Assembly.Guards
import Scaffold.Proofs.Assembly.Location
import Scaffold.Proofs.Assembly.Relying
import Scaffold.Proofs.Fragment.Relation

/-!
# How an assembly may fail

An assembly relies on the paths that it makes on its way to be contained, and none ever is a breach
(`Relying.application_eq`). The errors that are left are few (`Application.Failure`), and among them
a base file is missing exactly if the base code lacks one (`Application.assemble_outcome`).
-/

namespace Scaffold

open Scaffold.Path (Component)

/-! ### Errors that are left -/

theorem BaseCode.content_eq_error_iff {base : BaseCode} {file : BaseFile} {cause : ProjectError} :
    base.content file = .error cause ↔
      base.content? ⟨file.path⟩ = none ∧ .missingBaseFile file.path = cause := by
  rw [content]
  cases base.content? ⟨file.path⟩ <;> simp

theorem BaseCode.exists_of_ensureComplete_eq_error {base : BaseCode} {cause : ProjectError}
    (h : base.ensureComplete = .error cause) :
    ∃ file : BaseFile, base.content? ⟨file.path⟩ = none ∧ .missingBaseFile file.path = cause := by
  obtain ⟨file, -, hfile⟩ := exists_of_forM_eq_error h
  refine ⟨file, content_eq_error_iff.1 ?_⟩
  cases hcontent : base.content file with
  | ok source =>
    rw [hcontent] at hfile
    cases hfile
  | error e =>
    rw [hcontent] at hfile
    exact congrArg Except.error (Except.error.inj hfile)

theorem Model.of_path_eq_error {e : Entity} {model : Model} {cause : ProjectError}
    (h : model.path e = .error cause) :
    ['.', '.'] ∈ Path.segments e.name.toList ∧ .escapingPath (model.location e) = cause := by
  obtain ⟨escape, hescape, rfl⟩ := ContainedPath.ofText_eq_error_iff.1 h
  constructor
  · refine Classical.byContradiction fun hup => ?_
    rw [(escape?_location_eq_none_iff e model).2 hup] at hescape
    cases hescape
  · rw [Path.escape?_eq, not_isAbsolute_location e model] at hescape
    split at hescape
    · contradiction
    · split at hescape <;> cases hescape
      rfl

theorem Residual.of_resolve_eq_error {residual : Residual} {e : Entity} {app : String}
    {file : ContainedPath} {cause : ProjectError}
    (h : residual.resolve e app file = .error cause) :
    ∃ token ∈ tokenNames residual.text, NameCode.ofName? token = none ∧
      .unresolvedToken file.display token = cause := by
  rw [resolve] at h
  split at h
  · rename_i token hfind
    have hcode := List.find?_some hfind
    exact ⟨token, List.mem_of_find?_eq_some hfind, Option.isNone_iff_eq_none.1 hcode,
      Except.error.inj h⟩
  · cases h

theorem Residual.of_finish_eq_error {residual : Residual} {file : ContainedPath}
    {cause : ProjectError} (h : residual.finish file = .error cause) :
    ∃ token ∈ tokenNames residual.text, .unresolvedToken file.display token = cause := by
  rw [finish] at h
  split at h
  · rename_i token rest htokens
    exact ⟨token, by simp [htokens], Except.error.inj h⟩
  · cases h

namespace Application

/-- Why a project has no application from a base code. -/
inductive Failure (p : Project) (policy : RelationPolicy) (base : BaseCode) : ProjectError → Prop
  /-- A file that takes part in the generation is not there. -/
  | missing (file : BaseFile) : base.content? ⟨file.path⟩ = none →
    Failure p policy base (.missingBaseFile file.path)
  /-- Under the strict policy, an entity belongs to one that is not declared. -/
  | undeclared (e : Entity) (parent : String) : policy = .strict → e ∈ p.entities →
    parent ∈ e.parents → p.entity? parent = none →
    Failure p policy base (.unresolvedRelation e.name parent)
  /-- The name of an entity leads upward. -/
  | climbing (e : Entity) (model : Model) : e ∈ p.entities →
    ['.', '.'] ∈ Path.segments e.name.toList →
    Failure p policy base (.escapingPath (model.location e))
  /-- A token is left over in an aggregate whose slot is filled. -/
  | leftInAggregate (path : ContainedPath) (aggregate : Aggregate) (residual : Residual)
    (token : String) : path.aggregate? = some aggregate →
    aggregate.residual p base = .ok residual → token ∈ tokenNames residual.text →
    Failure p policy base (.unresolvedToken path.display token)
  /-- A token that is no name code is left over in a model whose slots are filled. -/
  | leftInModel (e : Entity) (model : Model) (path : ContainedPath) (residual : Residual)
    (token : String) : e ∈ p.entities → model.path e = .ok path →
    Module.residual p base e model = .ok residual → token ∈ tokenNames residual.text →
    NameCode.ofName? token = none → Failure p policy base (.unresolvedToken path.display token)
  /-- Two files belong in one place, or one in another. -/
  | collision (path : ContainedPath) : (∃ place ∈ places p base, path.path.components <+: place) →
    ¬ (places p base).Pairwise Path.Apart → Failure p policy base (.duplicatePath path.display)

section
variable {p : Project} {policy : RelationPolicy} {base : BaseCode} {cause : ProjectError}

theorem failure_of_sharedFile {f : ContainedPath × String} (hf : f ∈ base.sharedFiles)
    (h : sharedFile p f.1 f.2 = .error cause) : Failure p policy base cause := by
  simp only [sharedFile] at h
  split at h
  · cases h
  · rename_i aggregate haggregate
    have hsource : base.content (.aggregate aggregate) = .ok f.2 :=
      BaseCode.content_aggregate_eq_ok_iff.2 ⟨f.1, hf, haggregate⟩
    rw [if_pos (ContainedPath.takesAppName_of_aggregate? haggregate), aggregate.render_filling,
      ok_bind, bind_eq_error_iff] at h
    rcases h with h | ⟨content, -, h⟩
    · obtain ⟨token, htoken, rfl⟩ := Residual.of_finish_eq_error h
      exact .leftInAggregate f.1 aggregate _ token haggregate (Aggregate.residual_eq_ok hsource p)
        htoken
    · cases h

theorem failure_of_file {e : Entity} (he : e ∈ p.entities) {model : Model}
    (h : Module.file base p.camelName e (Relations.ofEntity p e) model = .error cause) :
    Failure p policy base cause := by
  rw [Module.file, bind_eq_error_iff] at h
  rcases h with h | ⟨path, hpath, h⟩
  · obtain ⟨hup, rfl⟩ := Model.of_path_eq_error h
    exact .climbing e model he hup
  rcases bind_eq_error_iff.1 h with h | ⟨source, hsource, h⟩
  · obtain ⟨hnone, rfl⟩ := BaseCode.content_eq_error_iff.1 h
    exact .missing (.model model) hnone
  rcases bind_eq_error_iff.1 h with h | ⟨residual, hresidual, h⟩
  · -- every slot of the model has a value
    have hslots : ∀ s ∈ (BaseFile.model model).slots,
        ((model.filling e (Relations.ofEntity p e)).value? s).isSome := fun s hs => by
      rw [model.value?_filling p e s hs]
      rfl
    obtain ⟨residual, hresidual⟩ := BaseFile.exists_render_eq_ok hslots source
    rw [hresidual] at h
    cases h
  rcases bind_eq_error_iff.1 h with h | ⟨content, -, h⟩
  · obtain ⟨token, htoken, hcode, rfl⟩ := Residual.of_resolve_eq_error h
    have hmodel : Module.residual p base e model = .ok residual := by
      rw [Module.residual, hsource]
      exact hresidual
    exact .leftInModel e model path residual token he hpath hmodel htoken hcode
  · cases h

theorem failure_of_module {e : Entity} (he : e ∈ p.entities)
    (h : Module.assemble p policy base e = .error cause) : Failure p policy base cause := by
  rw [Module.assemble, bind_eq_error_iff] at h
  rcases h with h | ⟨relations, hrelations, h⟩
  · obtain ⟨hstrict, parent, hparent, hnone, rfl⟩ := Relations.of_expand_eq_error h
    exact .undeclared e parent hstrict he hparent hnone
  · obtain rfl := Relations.eq_ofEntity_of_expand_eq_ok hrelations
    rcases bind_eq_error_iff.1 h with h | ⟨files, -, h⟩
    · obtain ⟨model, -, h⟩ := exists_of_mapM_eq_error h
      exact failure_of_file he h
    · cases h

/-- A check that fails behind all steps has found two files in one place, or one in another. -/
theorem failure_of_validate (hsome : base.sharedFiles ≠ [])
    {shared : List (ContainedPath × String)} {modules : List Module}
    (hshared : base.sharedFiles.mapM (fun f => sharedFile p f.1 f.2) = .ok shared)
    (hmodules : p.entities.mapM (Module.assemble p policy base) = .ok modules)
    (h : (treeOf (shared ++ moduleFiles modules)).validate = .error cause) :
    Failure p policy base cause := by
  have hplaces := places_eq hshared hmodules
  have hfiles : shared ++ moduleFiles modules ≠ [] := by
    intro hnil
    rw [hnil, places] at hplaces
    simp [hsome] at hplaces
  have hapart : ¬ (places p base).Pairwise Path.Apart := by
    intro hapart
    rw [validate_treeOf_of_pairwise hfiles (hplaces ▸ hapart)] at h
    cases h
  have hentries := entries_treeOf_ne_nil_iff.2 hfiles
  rw [OutputTree.validate, if_neg (by simpa using hentries)] at h
  split at h
  · rename_i path hpath
    obtain ⟨entry, hentry, rfl⟩ := List.mem_map.1 (OutputTree.mem_of_firstRepeated?_eq_some hpath)
    obtain ⟨f, hf, hprefix⟩ := exists_file_of_mem_treeOf hentry
    cases h
    exact .collision _ ⟨_, hplaces ▸ List.mem_map_of_mem hf, hprefix⟩ hapart
  · cases h

theorem failure_of_assemble (h : assemble p policy base = .error cause) :
    Failure p policy base cause := by
  rw [assemble, bind_eq_error_iff] at h
  rcases h with h | ⟨_, hcomplete, h⟩
  · obtain ⟨file, hnone, rfl⟩ := BaseCode.exists_of_ensureComplete_eq_error h
    exact .missing file hnone
  rcases bind_eq_error_iff.1 h with h | ⟨shared, hshared, h⟩
  · obtain ⟨f, hf, h⟩ := exists_of_mapM_eq_error h
    exact failure_of_sharedFile hf h
  rcases bind_eq_error_iff.1 h with h | ⟨modules, hmodules, h⟩
  · obtain ⟨e, he, h⟩ := exists_of_mapM_eq_error h
    exact failure_of_module he h
  rcases bind_eq_error_iff.1 h with h | ⟨_, -, h⟩
  · have hindex : base.sharedFiles ≠ [] := by
      obtain ⟨source, hsource⟩ := BaseCode.ensureComplete_eq_ok_iff.1 hcomplete (.aggregate .index)
      obtain ⟨path, hmem, -⟩ := BaseCode.content_aggregate_eq_ok_iff.1 hsource
      exact List.ne_nil_of_mem hmem
    exact failure_of_validate hindex hshared hmodules h
  · cases h

/-- An assembly of whatever project, under either policy and from whatever base code, does not break
off: every path that it relies on is contained. It gives an application or an error of the kinds of
`Failure`, and the error is a missing file exactly if the base code lacks a file that takes part. -/
theorem assemble_outcome (p : Project) (policy : RelationPolicy) (base : BaseCode) :
    Relying.application p policy base = (assemble p policy base).mapError .project ∧
      ((∃ a, assemble p policy base = .ok a) ∨
        ∃ cause, assemble p policy base = .error cause ∧ Failure p policy base cause) ∧
      ((∃ path, assemble p policy base = .error (.missingBaseFile path)) ↔
        ∃ file : BaseFile, base.content? ⟨file.path⟩ = none) := by
  refine ⟨Relying.application_eq p policy base, ?_, ?_, ?_⟩
  · cases h : assemble p policy base with
    | ok a => exact .inl ⟨a, rfl⟩
    | error cause => exact .inr ⟨cause, rfl, failure_of_assemble h⟩
  · rintro ⟨path, h⟩
    cases failure_of_assemble h with
    | missing file hnone => exact ⟨file, hnone⟩
  · rintro ⟨file, hnone⟩
    cases hcomplete : base.ensureComplete with
    | ok _ =>
      obtain ⟨source, hsource⟩ := BaseCode.ensureComplete_eq_ok_iff.1 hcomplete file
      rw [BaseCode.content_eq_error_iff.2 ⟨hnone, rfl⟩] at hsource
      cases hsource
    | error cause =>
      obtain ⟨first, -, rfl⟩ := BaseCode.exists_of_ensureComplete_eq_error hcomplete
      exact ⟨first.path, by rw [assemble, hcomplete]; rfl⟩

end

end Application

end Scaffold
