import Mathlib.Data.List.Perm.Basic
import Scaffold.Proofs.Assembly.Guards
import Scaffold.Proofs.Fragment.Relation
import Scaffold.Proofs.Template.Divided

/-!
# Entities in another order

The order in which a project declares its entities decides the order of the blocks in the files that
gather them, and nothing else. Whether there is an application does not depend on it either: the
blocks are framed by line breaks and tabs, so that no token comes about where two of them meet.
-/

namespace Scaffold

open Template (IsFramed findTokens head?_toList_append getLast?_toList_append)

/-! ### Blocks side by side -/

namespace Aggregate

variable (aggregate : Aggregate)

theorem isFramed_block (e : Entity) : IsFramed (aggregate.block e).toList := by
  cases aggregate <;> refine .of_lines ?_ (getLast?_toList_append (by decide) _)
  all_goals
    repeat apply head?_toList_append
    decide

theorem isFramed_blocks {entities : List Entity} (h : entities ≠ []) :
    IsFramed (String.join (entities.map aggregate.block)).toList := by
  induction entities with
  | nil => exact absurd rfl h
  | cons e entities ih =>
    rw [List.map_cons, String.join_cons, String.toList_append]
    cases entities with
    | nil => simpa using aggregate.isFramed_block e
    | cons r entities => exact (aggregate.isFramed_block e).append (ih (by simp))

theorem findTokens_blocks (entities : List Entity) :
    findTokens (String.join (entities.map aggregate.block)).toList =
      entities.flatMap fun e => findTokens (aggregate.block e).toList := by
  induction entities with
  | nil => rfl
  | cons e entities ih =>
    have hsplit := (aggregate.isFramed_block e).findTokens_append_append []
    rw [List.map_cons, String.join_cons, String.toList_append, List.flatMap_cons, ← ih]
    exact hsplit _

/-- Blocks leave no token in their place exactly if none of them holds one and there was no other
token. -/
theorem tokenNames_replaced_blocks {entities : List Entity} (h : entities ≠ []) (text : String) :
    tokenNames (replaced aggregate.slot.token (String.join (entities.map aggregate.block)) text) =
        [] ↔
      ∀ name ∈ findTokens text.toList, name = aggregate.slot.name.toList ∧
        ∀ e ∈ entities, findTokens (aggregate.block e).toList = [] := by
  rw [tokenNames, List.map_eq_nil_iff, replaced, String.toList_ofList, Slot.token,
    Template.toList_delimited,
    (aggregate.isFramed_blocks h).findTokens_replaceAll (Template.isIdentifier_slot _),
    findTokens_blocks, List.flatMap_eq_nil_iff]
  refine forall₂_congr fun name _ => ?_
  by_cases hname : name = aggregate.slot.name.toList
  · rw [if_pos hname, List.flatMap_eq_nil_iff, and_iff_right hname]
  · rw [if_neg hname]
    exact iff_of_false (by simp) fun hboth => hname hboth.1

theorem tokenNames_replaced_blocks_perm {entities entities' : List Entity}
    (hperm : entities.Perm entities') (text : String) :
    tokenNames (replaced aggregate.slot.token (String.join (entities.map aggregate.block)) text) =
        [] ↔
      tokenNames (replaced aggregate.slot.token (String.join (entities'.map aggregate.block)) text) =
        [] := by
  by_cases hnil : entities = []
  · obtain rfl := hnil
    rw [hperm.nil_eq]
  · have hnil' : entities' ≠ [] := fun h => hnil (h ▸ hperm).eq_nil
    rw [aggregate.tokenNames_replaced_blocks hnil, aggregate.tokenNames_replaced_blocks hnil']
    simp only [hperm.mem_iff]

end Aggregate

/-! ### Trees of files in another order -/

namespace Application

variable {files files' : List (ContainedPath × String)}

/-- Which directories there are, and in which order, does not depend on the order of the files. -/
theorem components_directoriesOf_perm (h : (files.map (·.1)).Perm (files'.map (·.1))) :
    (directoriesOf files).map (·.path.components) =
      (directoriesOf files').map (·.path.components) := by
  have hmem (cs : List Path.Component) : cs ∈ (directoriesOf files).map (·.path.components) ↔
      cs ∈ (directoriesOf files').map (·.path.components) := by
    have hfiles (good : ContainedPath → Prop) :
        (∃ f ∈ files, good f.1) ↔ ∃ f ∈ files', good f.1 := by
      have hpaths : (∃ path ∈ files.map (·.1), good path) ↔ ∃ path ∈ files'.map (·.1), good path := by
        simp only [h.mem_iff]
      simpa only [List.mem_map, exists_exists_and_eq_and] using hpaths
    rw [mem_components_directoriesOf, mem_components_directoriesOf,
      hfiles fun path => cs <+: path.path.components ∧ cs ≠ path.path.components]
  have hperm := (List.perm_ext_iff_of_nodup (nodup_components_directoriesOf files)
    (nodup_components_directoriesOf files')).2 hmem
  have hsorted (files : List (ContainedPath × String)) :
      ((directoriesOf files).map (·.path.components)).Pairwise fun cs ds =>
        cs.map Path.Component.rank < ds.map Path.Component.rank :=
    List.pairwise_map.2 (pairwise_directoriesOf files)
  refine hperm.eq_of_pairwise (fun cs ds _ _ hlt hgt => ?_) (hsorted files) (hsorted files')
  exact absurd hgt (List.lt_asymm hlt)

theorem validate_treeOf_perm (h : (files.map (·.1)).Perm (files'.map (·.1))) :
    (treeOf files).validate = .ok () ↔ (treeOf files').validate = .ok () := by
  have hcomponents : ((treeOf files).entries.map TreeEntry.components).Perm
      ((treeOf files').entries.map TreeEntry.components) := by
    have hfiles := h.map (·.path.components)
    rw [List.map_map, List.map_map] at hfiles
    rw [components_treeOf, components_treeOf, components_directoriesOf_perm h]
    exact hfiles.append_left _
  have hentries : (treeOf files).entries = [] ↔ (treeOf files').entries = [] := by
    have hlength := hcomponents.length_eq
    rw [List.length_map, List.length_map] at hlength
    rw [← List.length_eq_zero_iff, hlength, List.length_eq_zero_iff]
  rw [OutputTree.validate_eq_ok_iff, OutputTree.validate_eq_ok_iff, hcomponents.nodup_iff, ne_eq,
    hentries]

/-! ### Applications in another order -/

/-- Two applications that differ at most in the files that gather blocks and in the order of what is
noted. -/
structure SameButOrder (a b : Application) : Prop where
  directories : a.tree.directories.map (·.path.components) =
    b.tree.directories.map (·.path.components)
  paths : (a.tree.files.map (·.1)).Perm (b.tree.files.map (·.1))
  contents : ∀ path : ContainedPath, path.aggregate? = none →
    a.tree.content? path.path = b.tree.content? path.path
  unresolvedParents : a.unresolvedParents.Perm b.unresolvedParents
  withoutInput : a.withoutInput.Perm b.withoutInput

section
variable {p : Project} {policy : RelationPolicy} {base : BaseCode} {entities : List Entity}

/-- Only files that gather blocks depend on the entities. -/
theorem sharedFile_eq_ok_iff_of_aggregate?_eq_none {path : ContainedPath} {source : String}
    {f : ContainedPath × String} (h : f.1.aggregate? = none) (entities : List Entity) :
    sharedFile p path source = .ok f ↔ sharedFile { p with entities } path source = .ok f := by
  by_cases hpath : f.1 = path
  · subst hpath
    rw [sharedFile_of_aggregate?_eq_none h, sharedFile_of_aggregate?_eq_none h]
    rfl
  · exact iff_of_false (fun hfile => hpath (path_of_sharedFile_eq_ok hfile))
      fun hfile => hpath (path_of_sharedFile_eq_ok hfile)

theorem exists_shared_perm (hperm : p.entities.Perm entities)
    {shared : List (ContainedPath × String)}
    (hshared : base.sharedFiles.mapM (fun f => sharedFile p f.1 f.2) = .ok shared) :
    ∃ shared', base.sharedFiles.mapM (fun f => sharedFile { p with entities } f.1 f.2) =
      .ok shared' := by
  refine exists_mapM_eq_ok fun f hf => ?_
  obtain ⟨r, -, hr⟩ := exists_mem_of_mapM_eq_ok hshared hf
  refine exists_sharedFile_iff_tokenNames.2 fun aggregate haggregate => ?_
  have htokens := exists_sharedFile_iff_tokenNames.1 ⟨r, hr⟩ aggregate haggregate
  exact (aggregate.tokenNames_replaced_blocks_perm hperm _).1 htokens

theorem module_assemble_perm (hdistinct : (p.entities.map (·.name)).Nodup)
    (hperm : p.entities.Perm entities) :
    Module.assemble p policy base = Module.assemble { p with entities } policy base := by
  funext e
  have hparents : e.SeesAlike p { p with entities } := fun name _ => by
    rw [Project.entity?_perm (q := { p with entities }) hdistinct hperm]
  rw [Module.assemble, Module.assemble, Relations.expand_congr policy hparents]
  rfl

/-- An application stays the same but for the order of its blocks and notes if its entities come in
another order. -/
theorem exists_assemble_perm (hdistinct : (p.entities.map (·.name)).Nodup)
    (hperm : p.entities.Perm entities) {a : Application} (ha : assemble p policy base = .ok a) :
    ∃ b, assemble { p with entities } policy base = .ok b ∧ a.SameButOrder b := by
  obtain ⟨hcomplete, shared, modules, hshared, hmodules, hvalid, rfl⟩ := assemble_eq_ok_iff.1 ha
  obtain ⟨shared', hshared'⟩ := exists_shared_perm hperm hshared
  -- the modules are the same, and come in the order of their entities
  rw [module_assemble_perm hdistinct hperm] at hmodules
  obtain ⟨modules', hmodules', hmodulesPerm⟩ := exists_mapM_perm hperm hmodules
  have hfiles : (moduleFiles modules).Perm (moduleFiles modules') :=
    hmodulesPerm.flatMap_right _
  have hpaths : ((shared ++ moduleFiles modules).map (·.1)).Perm
      ((shared' ++ moduleFiles modules').map (·.1)) := by
    rw [List.map_append, List.map_append,
      map_eq_of_mapM_eq_ok (fun _ _ hf => path_of_sharedFile_eq_ok hf) hshared,
      map_eq_of_mapM_eq_ok (fun _ _ hf => path_of_sharedFile_eq_ok hf) hshared']
    exact (hfiles.map _).append_left _
  have hmem (f : ContainedPath × String) (hf : f.1.aggregate? = none) :
      f ∈ shared ++ moduleFiles modules ↔ f ∈ shared' ++ moduleFiles modules' := by
    rw [List.mem_append, List.mem_append, mem_iff_of_mapM_eq_ok hshared,
      mem_iff_of_mapM_eq_ok hshared', hfiles.mem_iff]
    simp only [sharedFile_eq_ok_iff_of_aggregate?_eq_none hf entities]
  have hvalid' := (validate_treeOf_perm hpaths).1 hvalid
  refine ⟨_, assemble_eq_ok_iff.2 ⟨hcomplete, shared', modules', hshared', hmodules', hvalid', rfl⟩,
    ?_⟩
  exact {
    directories := by
      rw [directories_treeOf, directories_treeOf, components_directoriesOf_perm hpaths]
    paths := by
      rw [files_treeOf, files_treeOf]
      exact hpaths
    contents := by
      intro path hpath
      refine Option.ext fun content => ?_
      rw [content?_treeOf_eq_some_iff hvalid, content?_treeOf_eq_some_iff hvalid']
      refine exists_congr fun f => and_congr_left fun hf => hmem f ?_
      exact (ContainedPath.aggregate?_congr hf.1).trans hpath
    unresolvedParents := hmodulesPerm.flatMap_right _
    withoutInput := hmodulesPerm.flatMap_right _ }

/-- The order in which entities are declared decides nothing but the order of blocks and notes. -/
theorem assemble_perm (policy : RelationPolicy) (base : BaseCode)
    (hdistinct : (p.entities.map (·.name)).Nodup) (hperm : p.entities.Perm entities) :
    ((∃ a, assemble p policy base = .ok a) ↔
        ∃ b, assemble { p with entities } policy base = .ok b) ∧
      ∀ a b, assemble p policy base = .ok a → assemble { p with entities } policy base = .ok b →
        a.SameButOrder b := by
  refine ⟨⟨?_, ?_⟩, fun a b ha hb => ?_⟩
  · rintro ⟨a, ha⟩
    obtain ⟨b, hb, -⟩ := exists_assemble_perm hdistinct hperm ha
    exact ⟨b, hb⟩
  · rintro ⟨b, hb⟩
    have hdistinct' : (entities.map (·.name)).Nodup := (hperm.map _).nodup_iff.1 hdistinct
    obtain ⟨a, ha, -⟩ := exists_assemble_perm (p := { p with entities }) hdistinct' hperm.symm hb
    exact ⟨a, ha⟩
  · obtain ⟨b', hb', hsame⟩ := exists_assemble_perm hdistinct hperm ha
    cases hb.symm.trans hb'
    exact hsame

/-- A car and its maker, declared the other way round. -/
theorem assemble_perm_of_garage :
    let car : Entity := ⟨"cars", "car", [⟨"price", .float, true, true, none⟩], ["makers", "lots"]⟩
    let maker : Entity := ⟨"makers", "maker", [⟨"name", .unknown, true, true, none⟩], ["cars"]⟩
    ∃ a b, assemble ⟨"Garage", none, [car, maker]⟩ .permissive Bundled.baseCode = .ok a ∧
      assemble ⟨"Garage", none, [maker, car]⟩ .permissive Bundled.baseCode = .ok b ∧
      a.SameButOrder b := by
  intro car maker
  have hperm : [car, maker].Perm [maker, car] := .swap maker car []
  have hfits : Project.Fits ⟨"Garage", none, [car, maker]⟩ Bundled.baseCode :=
    Bundled.fits (by decide +kernel) (by decide) (by decide)
  obtain ⟨a, ha⟩ := Bundled.exists_assemble_iff_fits.2 hfits
  have hsame := assemble_perm (p := ⟨"Garage", none, [car, maker]⟩) .permissive Bundled.baseCode
    (by decide) hperm
  obtain ⟨b, hb⟩ := hsame.1.1 ⟨a, ha⟩
  exact ⟨a, b, ha, hb, hsame.2 a b ha hb⟩

end

end Application

end Scaffold
