import Scaffold.BaseCode.Bundled
import Scaffold.Proofs.BaseCode.Basic
import Scaffold.Proofs.Template.Words

/-!
# The bundled files as templates

The sources of the bundled base code that take part in the generation are templates. Their tokens
are slots that the file declares and, in the models, name codes.
-/

namespace Scaffold

open Template (Spells isTemplate isGuarded)

/-- Whether a file may use a token: a slot that it declares or, in a model, a name code. -/
def BaseFile.knows (file : BaseFile) (name : List Char) : Bool :=
  (file.slots.any fun s => s.name.toList == name) ||
    match file with
    | model _ => NameCode.all.any fun c => c.name.toList == name
    | aggregate _ => false

/-- A base code whose sources are templates with tokens that their files know. In a file that
gathers blocks no brace stands before the letter that the words for the names of a project begin
with. -/
structure BaseCode.IsTemplated (base : BaseCode) : Prop where
  model : ∀ model, ∃ source, base.content (.model model) = .ok source ∧
    Spells (BaseFile.model model).knows source
  aggregate : ∀ aggregate, ∃ source, base.content (.aggregate aggregate) = .ok source ∧
    Spells (BaseFile.aggregate aggregate).knows source ∧ ¬ ['{', 'a'] <:+: source.toList

namespace Bundled

/-! ### Sources -/

/-- The source of a file that takes part in the generation. -/
def source : BaseFile → String
  | .model .services => baseServices
  | .model .listController => baseController
  | .model .editController => baseEditController
  | .model .listView => baseListView
  | .model .editView => baseEditView
  | .aggregate .index => index
  | .aggregate .states => appStates
  | .aggregate .sidebar => sidebarView

theorem mem_files_source (file : BaseFile) : (file.path, source file) ∈ files := by
  rcases file with model | aggregate
  · cases model <;> simp [files, source, BaseFile.path]
  · cases aggregate <;> simp [files, source, BaseFile.path]

/-- No two bundled files stand at one path. -/
theorem nodup_files : (files.map fun f => Path.key ⟨f.1⟩).Nodup := by decide +kernel

theorem nodup_pmap_files :
    ((files.pmap (fun f contained => ((⟨⟨f.1⟩, contained⟩, f.2) : ContainedPath × String))
      files_contained).map (·.1.path.key)).Nodup := by
  have hmap := List.pmap_eq_map (f := fun f : String × String => Path.key ⟨f.1⟩) files_contained
  rw [List.map_pmap]
  exact hmap ▸ nodup_files

theorem mem_entries_baseCode {e : Path × String} :
    e ∈ baseCode.files.entries ↔ (e.1.text, e.2) ∈ files := by
  rw [baseCode, BaseCode.mem_entries_ofList nodup_pmap_files]
  constructor
  · rintro ⟨_, hf, rfl⟩
    obtain ⟨f, hmem, rfl⟩ := List.mem_pmap.1 hf
    exact hmem
  · intro he
    exact ⟨_, List.mem_pmap.2 ⟨_, he, rfl⟩, rfl⟩

theorem exists_name_of_mem_entries :
    ∀ e ∈ baseCode.files.entries, ∃ s, .name s ∈ e.1.components := by
  have hfiles : ∀ f ∈ files, .name "index.html" ∈ Path.components ⟨f.1⟩ ∨
      .name "app" ∈ Path.components ⟨f.1⟩ := by decide +kernel
  intro e he
  rcases hfiles _ (mem_entries_baseCode.1 he) with h | h
  · exact ⟨_, h⟩
  · exact ⟨_, h⟩

theorem components_ne_nil_of_mem_entries :
    ∀ e ∈ baseCode.files.entries, e.1.components ≠ [] := by
  intro e he
  obtain ⟨s, hs⟩ := exists_name_of_mem_entries e he
  exact List.ne_nil_of_mem hs

theorem content_baseCode (file : BaseFile) : baseCode.content file = .ok (source file) := by
  have hmem : ((⟨file.path⟩, source file) : Path × String) ∈ baseCode.files.entries :=
    mem_entries_baseCode.2 (mem_files_source file)
  exact BaseCode.content_eq_ok (PathMap.find?_of_mem hmem rfl)

/-! ### Templates -/

theorem toList_append_ofList {s : String} {a cs : List Char} (h : s.toList = a) :
    (s ++ String.ofList cs).toList = a ++ cs := by
  rw [String.toList_append, h, String.toList_ofList]

/-- The check of a source whose characters are given. -/
theorem spells_of_toList_eq {known : List Char → Bool} {s : String} {cs : List Char}
    (hs : s.toList = cs) (h : isTemplate known 0 cs = true) : Spells known s :=
  .of_isTemplate (hs ▸ h)

/-- The check of a source that words are put into. -/
theorem spells_and_guarded_of_toList_eq {known : List Char → Bool} {s : String} {cs : List Char}
    (hs : s.toList = cs) (h : (isTemplate known 0 cs && isGuarded 'a' cs) = true) :
    Spells known s ∧ ¬ ['{', 'a'] <:+: s.toList := by
  subst hs
  rw [Bool.and_eq_true] at h
  exact ⟨.of_isTemplate h.1, Template.not_infix_of_isGuarded h.2⟩

set_option maxRecDepth 4000 in
theorem spells_model (model : Model) :
    Spells (BaseFile.model model).knows (source (.model model)) := by
  cases model <;> apply spells_of_toList_eq
  case services.hs | listController.hs | editController.hs | listView.hs | editView.hs =>
    repeat apply toList_append_ofList
    exact String.toList_ofList
  all_goals decide +kernel

set_option maxRecDepth 4000 in
theorem spells_aggregate (aggregate : Aggregate) :
    Spells (BaseFile.aggregate aggregate).knows (source (.aggregate aggregate)) ∧
      ¬ ['{', 'a'] <:+: (source (.aggregate aggregate)).toList := by
  cases aggregate <;> apply spells_and_guarded_of_toList_eq
  case index.hs | states.hs | sidebar.hs =>
    repeat apply toList_append_ofList
    exact String.toList_ofList
  all_goals decide +kernel

theorem isTemplated_baseCode : baseCode.IsTemplated where
  model model := ⟨_, content_baseCode _, spells_model model⟩
  aggregate aggregate := ⟨_, content_baseCode _, spells_aggregate aggregate⟩

end Bundled

end Scaffold
