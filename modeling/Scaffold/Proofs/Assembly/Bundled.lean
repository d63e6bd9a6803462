import Scaffold.Proofs.Assembly.Location
import Scaffold.Proofs.Assembly.Progress

/-!
# Applications from the bundled base code

The bundled base code never lets a project down whose names are plain and can be told apart as names
of directories: every such project has an application (`Bundled.exists_application`).
-/

namespace Scaffold

open Scaffold.Path (Component Apart IsName)

namespace Path.Apart

theorem cons {c : Component} {a b : List Component} (h : Apart a b) : Apart (c :: a) (c :: b) :=
  ⟨fun hp => h.1 (List.cons_prefix_cons.1 hp).2, fun hp => h.2 (List.cons_prefix_cons.1 hp).2⟩

theorem of_ne {c d : Component} (h : c ≠ d) (a b : List Component) : Apart (c :: a) (d :: b) :=
  ⟨fun hp => h (List.cons_prefix_cons.1 hp).1, fun hp => h (List.cons_prefix_cons.1 hp).1.symm⟩

end Path.Apart

/-! ### Files of entities -/

namespace Model

/-- The files of one entity stand apart. -/
theorem apart_below (name : String) {m m' : Model} (h : m ≠ m') :
    Apart ((m.below name).map .name) ((m'.below name).map .name) := by
  have hfile {x y : String} (hxy : x ≠ y) : Component.name (name ++ x) ≠ .name (name ++ y) :=
    fun heq => hxy ((String.append_right_inj name).1 (Component.name.inj heq))
  have hviews {x : String} (hx : '.' ∈ x.toList) : Component.name (name ++ x) ≠ .name "views" := by
    intro heq
    have hmem : '.' ∈ (name ++ x).toList := by
      rw [String.toList_append]
      exact List.mem_append_right _ hx
    rw [Component.name.inj heq] at hmem
    exact absurd hmem (by decide)
  cases m <;> cases m' <;> first
    | exact absurd rfl h
    | exact .of_ne (hfile (by decide)) _ _
    | exact .of_ne (hviews (by decide)) _ _
    | exact .of_ne (hviews (by decide)).symm _ _
    | exact (Path.Apart.of_ne (hfile (by decide)) _ _).cons

/-- Where the files of the entity with a given name stand. -/
def place (name : String) (model : Model) : List Component :=
  .name "app" :: .name "components" :: .name name :: (model.below name).map .name

theorem apart_place_of_ne {n n' : String} (h : n ≠ n') (m m' : Model) :
    Apart (m.place n) (m'.place n') :=
  (Path.Apart.of_ne (fun heq => h (Component.name.inj heq)) _ _).cons.cons

theorem pairwise_places {names : List String} (h : names.Nodup) :
    (names.flatMap fun name => Model.all.map (place name)).Pairwise Apart := by
  rw [List.pairwise_flatMap]
  constructor
  · intro name _
    have hall : Model.all.Nodup := by decide
    exact List.pairwise_map.2 (hall.imp fun hne => (apart_below name hne).cons.cons.cons)
  · refine h.imp fun hne a ha b hb => ?_
    obtain ⟨m, -, rfl⟩ := List.mem_map.1 ha
    obtain ⟨m', -, rfl⟩ := List.mem_map.1 hb
    exact apart_place_of_ne hne m m'

end Model

/-! ### Shared files -/

namespace BaseCode

/-- Shared files of which none stands in another stand apart. -/
theorem pairwise_apart_sharedFiles {base : BaseCode}
    (h : ∀ f ∈ base.sharedFiles, ∀ g ∈ base.sharedFiles,
      f.1.path.components <+: g.1.path.components → f.1.path.components = g.1.path.components) :
    (base.sharedFiles.map (·.1.path.components)).Pairwise Apart := by
  rw [List.pairwise_map]
  refine List.Pairwise.imp_of_mem (fun {f g} hf hg hlt => ?_) base.pairwise_sharedFiles
  have hne : f.1.path.components ≠ g.1.path.components := by
    rw [Ne, ← Path.key_eq_iff]
    intro heq
    rw [heq] at hlt
    exact List.lt_irrefl _ hlt
  exact ⟨fun hp => hne (h f hf g hg hp), fun hp => hne (h g hg f hf hp).symm⟩

end BaseCode

namespace Bundled

/-- Where the shared files of the bundled base code stand. -/
def sharedPlaces : List (List Component) :=
  [["index.html"],
    ["app", "app.js"],
    ["app", "app.config.js"],
    ["app", "app.states.js"],
    ["app", "styles", "app.css"],
    ["app", "components", "home", "home.controller.js"],
    ["app", "components", "home", "views", "home.html"],
    ["app", "components", "layout", "views", "header.html"],
    ["app", "components", "layout", "views", "sidebar.html"]].map (·.map .name)

theorem mem_sharedPlaces_of_mem_files :
    ∀ f ∈ files, Path.startsWith ⟨f.1⟩ BaseCode.modelDirectory = false →
      Path.components ⟨f.1⟩ ∈ sharedPlaces := by
  decide +kernel

theorem mem_sharedPlaces {f : ContainedPath × String} (hf : f ∈ baseCode.sharedFiles) :
    f.1.path.components ∈ sharedPlaces := by
  obtain ⟨hmem, hshared⟩ := BaseCode.mem_sharedFiles.1 hf
  exact mem_sharedPlaces_of_mem_files (f.1.path.text, f.2) (mem_entries_baseCode.1 hmem) hshared

theorem components_ne_nil : ∀ a ∈ sharedPlaces, a ≠ [] := by decide

theorem sharedFiles_ne_nil : baseCode.sharedFiles ≠ [] := by
  have hindex : (BaseCode.location (.aggregate .index), index) ∈ baseCode.sharedFiles :=
    BaseCode.mem_sharedFiles.2
      ⟨mem_entries_baseCode.2 (mem_files_source (.aggregate .index)), by decide +kernel⟩
  exact List.ne_nil_of_mem hindex

theorem eq_of_prefix_sharedPlaces : ∀ a ∈ sharedPlaces, ∀ b ∈ sharedPlaces, a <+: b → a = b := by
  decide +kernel

theorem pairwise_sharedFiles :
    (baseCode.sharedFiles.map (·.1.path.components)).Pairwise Apart :=
  BaseCode.pairwise_apart_sharedFiles fun _ hf _ hg hp =>
    eq_of_prefix_sharedPlaces _ (mem_sharedPlaces hf) _ (mem_sharedPlaces hg) hp

/-- The views of the layout stand apart even from those of an entity called so. -/
theorem apart_layout {view : String} (h : view ∈ ["header.html", "sidebar.html"]) (name : String)
    (model : Model) :
    Apart (["app", "components", "layout", "views", view].map .name) (model.place name) := by
  by_cases hname : "layout" = name
  · -- the directories are the same then, and only the names of the files differ
    subst hname
    rcases List.mem_pair.1 h with rfl | rfl <;> cases model <;> first
      | exact (Path.Apart.of_ne (by decide) _ _).cons.cons.cons
      | exact (Path.Apart.of_ne (by decide) _ _).cons.cons.cons.cons
  · exact (Path.Apart.of_ne (fun heq => hname (Component.name.inj heq)) _ _).cons.cons

/-- The shared files leave room for every entity that has not the name of the start page. -/
theorem apart_sharedPlaces {name : String} (h : name ≠ "home") (model : Model) :
    ∀ a ∈ sharedPlaces, Apart a (model.place name) := by
  intro a ha
  have hhome : Component.name "home" ≠ .name name := fun heq => h (Component.name.inj heq).symm
  simp only [sharedPlaces, List.map_cons, List.map_nil, List.mem_cons, List.not_mem_nil,
    or_false] at ha
  rcases ha with rfl | rfl | rfl | rfl | rfl | rfl | rfl | rfl | rfl
  · exact .of_ne (by decide) _ _
  · exact (Path.Apart.of_ne (by decide) _ _).cons
  · exact (Path.Apart.of_ne (by decide) _ _).cons
  · exact (Path.Apart.of_ne (by decide) _ _).cons
  · exact (Path.Apart.of_ne (by decide) _ _).cons
  · exact (Path.Apart.of_ne hhome _ _).cons.cons
  · exact (Path.Apart.of_ne hhome _ _).cons.cons
  · exact apart_layout (by decide) name model
  · exact apart_layout (by decide) name model

/-- Nothing stands in the way of the files of entities that can be told apart. -/
theorem pairwise_places {entities : List Entity} (hdistinct : (entities.map (·.name)).Nodup)
    (hnames : ∀ e ∈ entities, IsName e.name ∧ e.name ≠ "home") :
    (baseCode.sharedFiles.map (·.1.path.components) ++ entities.flatMap fun e =>
      Model.all.map fun model => Path.components ⟨model.location e⟩).Pairwise Apart := by
  have hplaces : (entities.flatMap fun e =>
      Model.all.map fun model => Path.components ⟨model.location e⟩) =
      (entities.map (·.name)).flatMap fun name => Model.all.map (Model.place name) := by
    rw [List.flatMap_map]
    refine List.flatMap_congr fun e he => List.map_congr_left fun model _ => ?_
    exact Model.components_location (hnames e he).1 model
  rw [hplaces]
  refine List.pairwise_append.2 ⟨pairwise_sharedFiles, Model.pairwise_places hdistinct, ?_⟩
  intro a ha b hb
  obtain ⟨f, hf, rfl⟩ := List.mem_map.1 ha
  obtain ⟨name, hname, hb⟩ := List.mem_flatMap.1 hb
  obtain ⟨e, he, rfl⟩ := List.mem_map.1 hname
  obtain ⟨model, -, rfl⟩ := List.mem_map.1 hb
  exact apart_sharedPlaces (hnames e he).2 model _ (mem_sharedPlaces hf)

theorem ensureComplete_baseCode : baseCode.ensureComplete = .ok () :=
  BaseCode.ensureComplete_eq_ok_iff.2 fun _ => ⟨_, content_baseCode _⟩

theorem exists_module {p : Project} (hp : p.IsPlain) (hnames : ∀ e ∈ p.entities, IsName e.name) :
    ∀ e ∈ p.entities, ∃ m, Module.assemble p .permissive baseCode e = .ok m :=
  fun e he => Module.exists_assemble_eq_ok isTemplated_baseCode hp.camelName hp.hasPlainNames
    (hp.entities e he) (Model.exists_path_eq_ok (hnames e he))

/-- A project has an application from the bundled base code if its names are plain and its entities
have names of their own that are names of directories, the one of the start page excepted. -/
theorem exists_application {p : Project} (hp : p.IsPlain)
    (hdistinct : (p.entities.map (·.name)).Nodup)
    (hnames : ∀ e ∈ p.entities, IsName e.name ∧ e.name ≠ "home") :
    ∃ a, Application.assemble p .permissive baseCode = .ok a :=
  Application.exists_assemble_eq_ok ensureComplete_baseCode
    (Application.exists_sharedFile_eq_ok isTemplated_baseCode hp)
    (exists_module hp fun e he => (hnames e he).1) sharedFiles_ne_nil
    (fun _ hf => components_ne_nil _ (mem_sharedPlaces hf)) (pairwise_places hdistinct hnames)

/-- An entity that belongs to itself, twice, and to one that nobody has declared. -/
theorem exists_application_of_self : ∃ a, Application.assemble
    ⟨"Garage", none, [⟨"cars", "car", [⟨"colour", .unknown, true, true, some "wheel"⟩],
      ["cars", "cars", "lots"]⟩, ⟨"layout", "", [], []⟩]⟩ .permissive baseCode = .ok a :=
  exists_application (by decide +kernel) (by decide) (by decide)

end Bundled

end Scaffold
