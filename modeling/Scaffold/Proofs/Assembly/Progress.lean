import Scaffold.Proofs.Assembly.Application
import Scaffold.Proofs.Assembly.Expansion
import Scaffold.Proofs.Assembly.Shared
import Scaffold.Proofs.BaseCode.Bundled

/-!
# Steps that do not fail

Over a base code of templates, plain names go through every step of an assembly: no slot is without
its fragments, and no token is left where a file is finished. What remains are the paths of the
files.
-/

namespace Scaffold

open Template (Spells passes slotPasses passValue)

/-- No string of the project that is put into a file holds a character of a mark. -/
structure Project.IsPlain (p : Project) : Prop where
  name : IsPlainName p.name
  camelName : IsPlainName p.camelName
  entities : ∀ e ∈ p.entities, e.IsPlain

instance : DecidablePred Project.IsPlain := fun p =>
  decidable_of_iff
    (IsPlainName p.name ∧ IsPlainName p.camelName ∧ ∀ e ∈ p.entities, e.IsPlain)
    ⟨fun h => ⟨h.1, h.2.1, h.2.2⟩, fun h => ⟨h.name, h.camelName, h.entities⟩⟩

theorem Project.IsPlain.hasPlainNames {p : Project} (hp : p.IsPlain) :
    ∀ r ∈ p.entities, r.HasPlainNames := fun r hr => (hp.entities r hr).toHasPlainNames

/-! ### Modules -/

/-- Every token that a model knows has a value. -/
theorem Model.isSome_tokenValue? (p : Project) (e : Entity) {model : Model} {name : List Char}
    (h : (BaseFile.model model).knows name = true) :
    (model.tokenValue? p e (String.ofList name)).isSome := by
  simp only [BaseFile.knows, Bool.or_eq_true, List.any_eq_true, beq_iff_eq] at h
  rw [tokenValue?, BaseFile.tokenValue?, Option.isSome_or, Bool.or_eq_true, Option.isSome_map,
    Option.isSome_map, NameCode.ofName?, List.find?_isSome, List.find?_isSome]
  rcases h with ⟨s, hs, rfl⟩ | ⟨c, hc, rfl⟩
  · exact .inl ⟨s, hs, by simp⟩
  · exact .inr ⟨c, hc, by simp⟩

section
variable {p : Project} {base : BaseCode} {e : Entity} (hbase : base.IsTemplated)
  (happ : IsPlainName p.camelName) (hp : ∀ r ∈ p.entities, r.HasPlainNames) (he : e.IsPlain)
include hbase happ hp he

theorem Module.exists_file_eq_ok {model : Model} (hpath : ∃ path, model.path e = .ok path) :
    ∃ f, Module.file base p.camelName e (Relations.ofEntity p e) model = .ok f := by
  obtain ⟨_, hsource, t, rfl, hknown⟩ := hbase.model model
  obtain ⟨path, hpath⟩ := hpath
  have hnone : (t.names.find? fun name => (model.tokenValue? p e (String.ofList name)).isNone) =
      none := by
    refine List.find?_eq_none.2 fun name hname => ?_
    simpa [Option.isSome_iff_ne_none] using model.isSome_tokenValue? p e (hknown name hname)
  rw [Module.file_eq_expand hsource hpath happ hp he, Template.expand_eq, hnone]
  exact ⟨_, rfl⟩

theorem Module.exists_assemble_eq_ok (hpath : ∀ model : Model, ∃ path, model.path e = .ok path) :
    ∃ m, Module.assemble p .permissive base e = .ok m := by
  obtain ⟨files, hfiles⟩ := exists_mapM_eq_ok fun model (_ : model ∈ Model.all) =>
    Module.exists_file_eq_ok hbase happ hp he (hpath model)
  refine ⟨⟨e, files, Relations.unresolvedParents p e, (Fragment.withoutInput e).map (·.name)⟩, ?_⟩
  rw [Module.assemble, Relations.expand_permissive]
  change (Model.all.mapM (Module.file base p.camelName e (Relations.ofEntity p e)) >>= _) = _
  rw [hfiles]
  rfl

end

/-! ### Shared files -/

theorem BaseFile.eq_of_knows_aggregate {aggregate : Aggregate} {name : List Char}
    (h : (BaseFile.aggregate aggregate).knows name = true) : name = aggregate.slot.name.toList := by
  simp only [knows, slots, List.any_cons, List.any_nil, Bool.or_false, beq_iff_eq] at h
  exact h.symm

theorem Aggregate.spells_block {known : List Char → Bool} (aggregate : Aggregate) {e : Entity}
    (he : e.HasPlainNames) : Spells known (aggregate.block e) := by
  cases aggregate
  · exact Fragment.spells_scriptIncludes he
  · exact Fragment.spells_routeStates he
  · exact Fragment.spells_menuEntry he

theorem Aggregate.value?_filling (entities : List Entity) (aggregate : Aggregate) :
    (aggregate.filling entities).value? aggregate.slot =
      some (String.join (entities.map aggregate.block)) := by
  simp [filling, Filling.ofList, Filling.set]

/-- The blocks stand in the place of the slot. -/
theorem Aggregate.render_filling (aggregate : Aggregate) (entities : List Entity) (text : String) :
    (BaseFile.aggregate aggregate).render text (aggregate.filling entities) =
      .ok ⟨replaced aggregate.slot.token (String.join (entities.map aggregate.block)) text⟩ := by
  simp only [BaseFile.render, BaseFile.slots, List.foldlM_cons, List.foldlM_nil,
    aggregate.value?_filling]
  rfl

/-- A shared file with the names of a project put in, if it takes them. -/
def Application.namedSource (p : Project) (path : ContainedPath) (source : String) : String :=
  if path.takesAppName then p.putNames source else source

namespace Application

section
variable {p : Project} {path : ContainedPath} {source : String}

theorem sharedFile_of_aggregate?_eq_none (h : path.aggregate? = none) :
    sharedFile p path source = .ok (path, namedSource p path source) := by
  simp only [sharedFile, h]
  rfl

/-- In an aggregate the blocks take the place of the slot, and no token may be left. -/
theorem sharedFile_eq_ok_iff_of_aggregate?_eq_some {aggregate : Aggregate}
    (h : path.aggregate? = some aggregate) {f : ContainedPath × String} :
    sharedFile p path source = .ok f ↔
      tokenNames (replaced aggregate.slot.token (String.join (p.entities.map aggregate.block))
        (namedSource p path source)) = [] ∧
      (path, replaced aggregate.slot.token (String.join (p.entities.map aggregate.block))
        (namedSource p path source)) = f := by
  have hfile : sharedFile p path source = ((BaseFile.aggregate aggregate).render
      (namedSource p path source) (aggregate.filling p.entities) >>= fun residual =>
        residual.finish path >>= fun content => pure (path, content)) := by
    simp only [sharedFile, h]
    rfl
  rw [hfile, aggregate.render_filling, ok_bind, bind_eq_ok_iff]
  simp only [Residual.finish_eq_ok_iff]
  constructor
  · rintro ⟨_, ⟨htokens, rfl⟩, hf⟩
    exact ⟨htokens, Except.ok.inj hf⟩
  · rintro ⟨htokens, rfl⟩
    exact ⟨_, ⟨htokens, rfl⟩, rfl⟩

/-- A shared file fails only for a token left where its blocks are put in. -/
theorem exists_sharedFile_iff_tokenNames :
    (∃ f, sharedFile p path source = .ok f) ↔ ∀ aggregate, path.aggregate? = some aggregate →
      tokenNames (replaced aggregate.slot.token (String.join (p.entities.map aggregate.block))
        (namedSource p path source)) = [] := by
  cases haggregate : path.aggregate? with
  | none => exact iff_of_true ⟨_, sharedFile_of_aggregate?_eq_none haggregate⟩ fun _ h => nomatch h
  | some aggregate =>
    simp only [sharedFile_eq_ok_iff_of_aggregate?_eq_some haggregate, exists_and_left, exists_eq',
      and_true, Option.some.injEq, forall_eq']

end

end Application

/-- The bare words for the names of a project, with the names. -/
def Project.nameWords (p : Project) : List (List Char × List Char) :=
  [("angularAppName".toList, p.camelName.toList), ("appName".toList, p.name.toList)]

theorem Project.toList_putNames (p : Project) (text : String) :
    (p.putNames text).toList = Text.replaceTokens p.nameWords text.toList := String.toList_ofList

theorem Project.isPlain_of_mem_nameWords {p : Project} :
    ∀ w ∈ p.nameWords, Text.IsPlain w.1 := by
  have hwords : ∀ word ∈ ["angularAppName", "appName"], IsPlainName word := by decide
  intro w hw
  rcases List.mem_pair.1 hw with rfl | rfl
  · exact hwords "angularAppName" (by simp)
  · exact hwords "appName" (by simp)

theorem Aggregate.not_infix_slot (aggregate : Aggregate) {p : Project} :
    ∀ w ∈ p.nameWords, ¬ w.1 <:+: aggregate.slot.name.toList := by
  have hwords : ∀ word ∈ ["angularAppName", "appName"],
      ¬ word.toList <:+: aggregate.slot.name.toList := by
    cases aggregate <;> decide +kernel
  intro w hw
  rcases List.mem_pair.1 hw with rfl | rfl
  · exact hwords _ (by simp)
  · exact hwords _ (by simp)

theorem Project.words {p : Project} (hp : p.IsPlain) : Template.Words 'a' p.nameWords where
  head := by simp [nameWords]
  plain := p.isPlain_of_mem_nameWords
  value := by
    intro w hw
    rcases List.mem_pair.1 hw with rfl | rfl
    · exact hp.camelName.brace_not_mem
    · exact hp.name.brace_not_mem

theorem Project.spells_putNames {p : Project} (hp : p.IsPlain) {aggregate : Aggregate}
    {source : String} (hs : Spells (BaseFile.aggregate aggregate).knows source)
    (hguard : ¬ ['{', 'a'] <:+: source.toList) :
    Spells (BaseFile.aggregate aggregate).knows (p.putNames source) := by
  refine hs.replaceWords (Project.words hp) (fun name hname w hw => ?_) hguard
  rw [BaseFile.eq_of_knows_aggregate hname]
  exact aggregate.not_infix_slot w hw

/-- A file that gathers blocks holds no token once they are in their slot. -/
theorem Application.exists_finish_eq_ok {aggregate : Aggregate} {source : String}
    (hs : Spells (BaseFile.aggregate aggregate).knows source) {entities : List Entity}
    (he : ∀ e ∈ entities, e.HasPlainNames) (path : ContainedPath) :
    ∃ content, ((BaseFile.aggregate aggregate).render source (aggregate.filling entities) >>=
      fun residual => residual.finish path) = .ok content := by
  obtain ⟨t, rfl, hknown⟩ := hs
  have hblocks : Spells (fun _ => false) (String.join (entities.map aggregate.block)) := by
    refine .join fun block hblock => ?_
    obtain ⟨e, hmem, rfl⟩ := List.mem_map.1 hblock
    exact aggregate.spells_block (he e hmem)
  obtain ⟨u, hu, hclosed⟩ := hblocks.exists_closed
  have hslots : ∀ s ∈ (BaseFile.aggregate aggregate).slots,
      (aggregate.filling entities).value? s = some u.text := by
    intro s hs
    rw [List.mem_singleton.1 hs, aggregate.value?_filling, hu]
  have hnames : (t.passes (slotPasses (fun _ => u) (BaseFile.aggregate aggregate).slots)).names =
      [] := by
    rw [Template.passes_eq_substitute, Template.names_substitute, List.flatMap_eq_nil_iff]
    intro name hname
    have hslot := BaseFile.eq_of_knows_aggregate (hknown name hname)
    simp [slotPasses, BaseFile.slots, passValue, hslot, passes, hclosed]
  refine ⟨(t.passes (slotPasses (fun _ => u) (BaseFile.aggregate aggregate).slots)).text, ?_⟩
  rw [BaseFile.render_text hslots]
  change Residual.finish ⟨_⟩ path = _
  rw [Residual.finish, Template.tokenNames_text, hnames]
  rfl

theorem Application.exists_sharedFile_eq_ok {p : Project} {base : BaseCode}
    (hbase : base.IsTemplated) (hp : p.IsPlain) :
    ∀ f ∈ base.sharedFiles, ∃ r, sharedFile p f.1 f.2 = .ok r := by
  intro f hf
  cases haggregate : f.1.aggregate? with
  | none =>
    simp only [sharedFile, haggregate]
    exact ⟨_, rfl⟩
  | some aggregate =>
    have hcontent : base.content (.aggregate aggregate) = .ok f.2 :=
      BaseCode.content_aggregate_eq_ok_iff.2 ⟨f.1, hf, haggregate⟩
    obtain ⟨source, hsource, hspells, hguard⟩ := hbase.aggregate aggregate
    obtain rfl : source = f.2 := Except.ok.inj (hsource.symm.trans hcontent)
    have htext : Spells (BaseFile.aggregate aggregate).knows
        (if f.1.takesAppName then p.putNames f.2 else f.2) := by
      split
      · exact Project.spells_putNames hp hspells hguard
      · exact hspells
    obtain ⟨content, hfinish⟩ := exists_finish_eq_ok htext hp.hasPlainNames f.1
    obtain ⟨residual, hrender, hfinish⟩ := bind_eq_ok_iff.1 hfinish
    refine ⟨(f.1, content), ?_⟩
    simp only [sharedFile, haggregate, bind_eq_ok_iff]
    exact ⟨residual, hrender, content, hfinish, rfl⟩

end Scaffold
