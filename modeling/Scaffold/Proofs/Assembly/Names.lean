import Scaffold.Proofs.Assembly.Guards
import Scaffold.Proofs.Template.OnePass
import Scaffold.Proofs.Text.Place

/-!
# Names in the files of an application

The words for the names of a project cannot overlap, so that each of them is replaced wherever it
stands in a text, whatever the names are (`Project.putNames_exact`).

The names are put into a file that gathers blocks before the blocks are, in a pass of their
own. Where the names bring about no slot the two passes are one; where they do, the blocks go
into a place that the base code does not have, while one pass would leave a slot there. So an
aggregate is what one pass over its source gives exactly if it has no more slots with the
names in it than without (`Application.exists_aggregate_eq_inOnePass_iff`).
-/

namespace Scaffold

namespace Template

open Text (replaceTokens)

section
variable {words : List (List Char × List Char)} {n value : List Char}
  (hwords : ∀ w ∈ words, Text.IsPlain w.1) (hn : isIdentifier n)
include hwords hn

/-- Around the token a text goes through the pass by itself. -/
theorem onePass_append (a b : List Char) :
    onePass words n value (a ++ spelled n ++ b) =
      onePass words n value a ++ value ++ onePass words n value b := by
  have hbrace : ∀ p ∈ words ++ [(spelled n, value)], '{' ∉ p.1.tail := by
    intro p hp
    rcases List.mem_append.1 hp with hp | hp
    · exact fun hmem => (hwords p hp).brace_not_mem (List.mem_of_mem_tail hmem)
    · obtain rfl := List.mem_singleton.1 hp
      exact brace_not_mem_tail_spelled hn
  have hhead : Text.tokenAtHead? (words ++ [(spelled n, value)]) (spelled n ++ b) =
      some (spelled n, value) := by
    have hnone : Text.tokenAtHead? words (spelled n ++ b) = none := by
      refine Text.tokenAtHead?_eq_none_iff.2 fun w hw hne hpre => ?_
      rw [spelled_append_eq_cons] at hpre
      cases hword : w.1 with
      | nil => exact hne hword
      | cons c word =>
        rw [hword, List.cons_prefix_cons] at hpre
        exact (hwords w hw).brace_not_mem (by simp [hword, hpre.1])
    have hsome : Text.tokenAtHead? [(spelled n, value)] (spelled n ++ b) =
        some (spelled n, value) := by
      have hafter : (Text.after? (spelled n) (spelled n ++ b)).isSome :=
        Text.isSome_after?.2 (List.prefix_append _ _)
      have hne : (spelled n).isEmpty = false := by simp [spelled, opening]
      simp [Text.tokenAtHead?, hafter, hne]
    rw [Text.tokenAtHead?, List.find?_append, ← Text.tokenAtHead?, ← Text.tokenAtHead?, hnone, hsome,
      Option.none_or]
  have hsplit : onePass words n value (a ++ (spelled n ++ b)) =
      onePass words n value a ++ onePass words n value (spelled n ++ b) := by
    rw [spelled_append_eq_cons]
    exact Text.replaceTokens_append_beginning hbrace a _
  rw [List.append_assoc, hsplit, List.append_assoc]
  exact congrArg (onePass words n value a ++ ·) (Text.replaceTokens_of_some hhead)

/-- A pass over words that are not in the name of the token. -/
theorem Spares.of_isPlain (hname : ∀ w ∈ words, ¬ w.1 <:+: n) : Spares words n value where
  identifier := hn
  copied := replaceTokens_append_spelled_of_isPlain hwords hname
  filled := onePass_append hwords hn

end

end Template

/-! ### The words for the names -/

namespace Project

theorem neverOverlap_nameWords (p : Project) : Text.NeverOverlap (p.nameWords.map (·.1)) := by
  have hwords : Text.NeverOverlap ["angularAppName".toList, "appName".toList] :=
    ⟨by decide +kernel, by decide +kernel, by decide +kernel⟩
  exact hwords

/-- Of a text with the names put in, the words for the names are replaced wherever they stand in the
text as it was, and all else is kept. No two of the words take up one place, and it makes no
difference in which order they are tried. -/
theorem putNames_exact (p : Project) (text : String) :
    (∀ result, Text.Rewritten p.nameWords text.toList result ↔ result = (p.putNames text).toList) ∧
      (∀ v ∈ p.nameWords, ∀ w ∈ p.nameWords, ∀ i j k, Text.TakesUp v.1 text.toList j i →
        Text.TakesUp w.1 text.toList k i → j = k ∧ v = w) ∧
      ∀ pairs, pairs.Perm p.nameWords →
        Text.replaceTokens pairs text.toList = (p.putNames text).toList := by
  have hapart := p.neverOverlap_nameWords
  have hrewritten := hapart.rewritten_replaceTokens text.toList
  rw [p.toList_putNames]
  refine ⟨fun result => ⟨fun h => hapart.rewritten_unique h hrewritten, ?_⟩, ?_, ?_⟩
  · rintro rfl
    exact hrewritten
  · intro v hv w hw i j k
    exact hapart.eq_of_takesUp_of_mem hv hw
  · intro pairs hperm
    exact hapart.replaceTokens_perm hperm text.toList

/-- Names that are the words themselves, put in where a word stands right behind another one. -/
theorem putNames_exact_of_adjacent :
    let p : Project := ⟨"angularAppName", some "my appName", []⟩
    let text := "angularAppNameappName"
    Text.Rewritten p.nameWords text.toList "my appNameangularAppName".toList ∧
      (∀ v ∈ p.nameWords, ∀ j, Text.TakesUp v.1 text.toList j 14 → v.1 = "appName".toList ∧ j = 14) ∧
      Text.replaceTokens p.nameWords.reverse text.toList = "my appNameangularAppName".toList := by
  intro p text
  obtain ⟨hexact, hunique, hperm⟩ := putNames_exact p text
  have hnamed : (p.putNames text).toList = "my appNameangularAppName".toList := by decide +kernel
  have htakes : Text.TakesUp "appName".toList text.toList 14 14 := by
    unfold Text.TakesUp
    decide +kernel
  refine ⟨(hexact _).2 hnamed.symm, fun v hv j hj => ?_, ?_⟩
  · obtain ⟨hplace, heq⟩ :=
      hunique v hv ("appName".toList, p.name.toList) (by simp [nameWords]) 14 j 14 hj htakes
    exact ⟨congrArg Prod.fst heq, hplace⟩
  · exact (hperm _ p.nameWords.reverse_perm).trans hnamed

end Project

open Template (onePass)

/-! ### The files that gather blocks -/

/-- The blocks of all entities of a project, in order. -/
def Aggregate.blocks (p : Project) (aggregate : Aggregate) : String :=
  String.join (p.entities.map aggregate.block)

/-- The source of an aggregate with the names of a project and the blocks of its entities put in
together, in one pass from left to right. -/
def Aggregate.inOnePass (p : Project) (aggregate : Aggregate) (source : String) : String :=
  String.ofList <| Text.replaceTokens
    [("angularAppName".toList, p.camelName.toList), ("appName".toList, p.name.toList),
      (aggregate.slot.token.toList, (aggregate.blocks p).toList)] source.toList

namespace Aggregate

variable {p : Project} {aggregate : Aggregate} {source : String}

theorem toList_inOnePass : (aggregate.inOnePass p source).toList =
    onePass p.nameWords aggregate.slot.name.toList (aggregate.blocks p).toList source.toList := by
  rw [inOnePass, String.toList_ofList, Slot.token, Template.toList_delimited]
  rfl

theorem replaced_putNames_eq_inOnePass_iff
    (h : tokenNames (replaced aggregate.slot.token (aggregate.blocks p) (p.putNames source)) = []) :
    replaced aggregate.slot.token (aggregate.blocks p) (p.putNames source) =
        aggregate.inOnePass p source ↔
      (tokenNames (p.putNames source)).count aggregate.slot.name =
        (tokenNames source).count aggregate.slot.name := by
  have hspares : Template.Spares p.nameWords aggregate.slot.name.toList (aggregate.blocks p).toList :=
    .of_isPlain p.isPlain_of_mem_nameWords (Template.isIdentifier_slot aggregate.slot)
      aggregate.not_infix_slot
  rw [count_tokenNames, count_tokenNames, p.toList_putNames]
  constructor
  · intro heq
    refine Nat.le_antisymm (Nat.le_of_not_lt fun hlt => ?_) (hspares.count_findTokens_le _)
    have hmem := hspares.mem_findTokens_onePass hlt
    rw [heq, tokenNames, List.map_eq_nil_iff, toList_inOnePass] at h
    rw [h] at hmem
    cases hmem
  · intro hcount
    rw [← String.toList_inj, toList_inOnePass, ← hspares.replaceAll_replaceTokens hcount,
      replaced, String.toList_ofList, Slot.token, Template.toList_delimited, p.toList_putNames]

end Aggregate

namespace Application

/-- A file that gathers blocks stands in the application with the names put in and then the
blocks. -/
theorem exists_aggregate {p : Project} {policy : RelationPolicy} {base : BaseCode} {a : Application}
    (ha : assemble p policy base = .ok a) (aggregate : Aggregate) :
    ∃ source, base.content (.aggregate aggregate) = .ok source ∧
      a.tree.content? ⟨(BaseFile.aggregate aggregate).path⟩ =
        some (replaced aggregate.slot.token (aggregate.blocks p) (p.putNames source)) ∧
      tokenNames (replaced aggregate.slot.token (aggregate.blocks p) (p.putNames source)) = [] := by
  obtain ⟨hcomplete, shared, modules, hshared, -, hvalid, rfl⟩ := assemble_eq_ok_iff.1 ha
  obtain ⟨source, hsource⟩ := BaseCode.ensureComplete_eq_ok_iff.1 hcomplete (.aggregate aggregate)
  obtain ⟨path, hmem, hpath⟩ := BaseCode.content_aggregate_eq_ok_iff.1 hsource
  obtain ⟨f, hf, hfile⟩ := exists_mem_of_mapM_eq_ok hshared hmem
  have hnamed : namedSource p path source = p.putNames source :=
    if_pos (ContainedPath.takesAppName_of_aggregate? hpath)
  obtain ⟨htokens, rfl⟩ := (sharedFile_eq_ok_iff_of_aggregate?_eq_some hpath).1 hfile
  rw [hnamed] at htokens hf
  have hkey := Path.key_eq_iff.2 (ContainedPath.aggregate?_eq_some_iff.1 hpath)
  exact ⟨source, hsource, (content?_treeOf_eq_some_iff hvalid).2
    ⟨_, List.mem_append_left _ hf, hkey, rfl⟩, htokens⟩

/-- An aggregate is what one pass over its source gives, with the names of the project and the
blocks put in together, exactly if the names bring about no slot. -/
theorem exists_aggregate_eq_inOnePass_iff {p : Project} {policy : RelationPolicy} {base : BaseCode}
    {a : Application} (ha : assemble p policy base = .ok a) (aggregate : Aggregate) :
    ∃ source content, base.content (.aggregate aggregate) = .ok source ∧
      a.tree.content? ⟨(BaseFile.aggregate aggregate).path⟩ = some content ∧
      (content = aggregate.inOnePass p source ↔
        (tokenNames (p.putNames source)).count aggregate.slot.name =
          (tokenNames source).count aggregate.slot.name) := by
  obtain ⟨source, hsource, hcontent, htokens⟩ := exists_aggregate ha aggregate
  exact ⟨source, _, hsource, hcontent, Aggregate.replaced_putNames_eq_inOnePass_iff htokens⟩

end Application

/-! ### Names that are spelled like a slot -/

/-- A base code that has nothing but the name of the application, as the title of its page. -/
def BaseCode.titleOnly : BaseCode :=
  .ofSources fun file => if file = .aggregate .index then "<title>appName</title>" else ""

namespace Application

theorem components_ne_nil_of_mem_ofSources {source : BaseFile → String} :
    ∀ e ∈ (BaseCode.ofSources source).files.entries, e.1.components ≠ [] := by
  have hpaths : ∀ file ∈ BaseFile.all, Path.components ⟨file.path⟩ ≠ [] := by decide +kernel
  intro e he
  obtain ⟨file, rfl⟩ := BaseCode.mem_entries_ofSources.1 he
  exact hpaths file (BaseCode.mem_all file)

theorem pairwise_ofSources {source : BaseFile → String} :
    ((BaseCode.ofSources source).sharedFiles.map (·.1.path.components)).Pairwise Path.Apart := by
  refine BaseCode.pairwise_apart_sharedFiles fun f hf g hg hp => ?_
  obtain ⟨file, hfile⟩ := BaseCode.mem_entries_ofSources.1 (BaseCode.mem_sharedFiles.1 hf).1
  obtain ⟨file', hfile'⟩ := BaseCode.mem_entries_ofSources.1 (BaseCode.mem_sharedFiles.1 hg).1
  obtain ⟨⟨hpath, -⟩, hpath', -⟩ := And.intro (Prod.mk.inj hfile) (Prod.mk.inj hfile')
  rw [hpath, hpath'] at hp ⊢
  exact BaseCode.components_path_eq_of_prefix hp

/-- Without entities the names of the project are all that may bring tokens. -/
theorem exists_assemble_ofSources {p : Project} (hp : p.entities = []) {source : BaseFile → String}
    (h : ∀ aggregate, tokenNames (replaced aggregate.slot.token ""
      (p.putNames (source (.aggregate aggregate)))) = []) :
    ∃ a, assemble p .permissive (.ofSources source) = .ok a := by
  refine (exists_assemble_iff_fits components_ne_nil_of_mem_ofSources).2
    ⟨fun file => ⟨_, BaseCode.content_ofSources source file⟩, ?_⟩
  constructor
  case contained | models => simp [hp]
  case apart => simpa [places, hp] using pairwise_ofSources
  case aggregates =>
    intro aggregate residual hresidual
    have hok := Aggregate.residual_eq_ok (BaseCode.content_ofSources source (.aggregate aggregate)) p
    rw [hresidual, hp] at hok
    rw [Except.ok.inj hok]
    exact h aggregate

/-- A name that has the words for the names in it stays as it is. -/
theorem index_eq_inOnePass_of_words :
    let p : Project := ⟨"appName shop", some "angularAppName", []⟩
    ∃ a, assemble p .permissive .titleOnly = .ok a ∧
      ∃ source content, BaseCode.titleOnly.content (.aggregate .index) = .ok source ∧
        a.tree.content? ⟨"index.html"⟩ = some content ∧
        (content = Aggregate.index.inOnePass p source ↔
          (tokenNames (p.putNames source)).count "insertScripts" =
            (tokenNames source).count "insertScripts") ∧
        content = "<title>appName shop</title>" ∧ content = Aggregate.index.inOnePass p source := by
  intro p
  obtain ⟨a, ha⟩ : ∃ a, assemble p .permissive .titleOnly = .ok a :=
    exists_assemble_ofSources rfl fun aggregate => by cases aggregate <;> decide +kernel
  obtain ⟨source, content, hsource, hcontent, hiff⟩ := exists_aggregate_eq_inOnePass_iff ha .index
  cases (BaseCode.content_ofSources _ (.aggregate .index)).symm.trans hsource
  have heq : content = Aggregate.index.inOnePass p "<title>appName</title>" :=
    hiff.2 (by decide +kernel)
  exact ⟨a, ha, _, content, hsource, hcontent, hiff, heq.trans (by decide +kernel), heq⟩

/-- The name of a project that is called like the slot of the scripts is taken for the slot. -/
theorem index_ne_inOnePass_of_insertScripts :
    let p : Project := ⟨"{%insertScripts%}", some "garage", []⟩
    ∃ a, assemble p .permissive .titleOnly = .ok a ∧
      BaseCode.titleOnly.content (.aggregate .index) = .ok "<title>appName</title>" ∧
      a.tree.content? ⟨"index.html"⟩ = some "<title></title>" ∧
      Aggregate.index.inOnePass p "<title>appName</title>" =
        "<title>{%insertScripts%}</title>" := by
  intro p
  obtain ⟨a, ha⟩ : ∃ a, assemble p .permissive .titleOnly = .ok a :=
    exists_assemble_ofSources rfl fun aggregate => by cases aggregate <;> decide +kernel
  obtain ⟨source, hsource, hcontent, -⟩ := exists_aggregate ha .index
  cases (BaseCode.content_ofSources _ (.aggregate .index)).symm.trans hsource
  exact ⟨a, ha, hsource, hcontent.trans (by decide +kernel), by decide +kernel⟩

end Application

end Scaffold
