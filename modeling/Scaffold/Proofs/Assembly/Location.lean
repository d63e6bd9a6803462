import Scaffold.Assembly.Module
import Scaffold.Proofs.Assembly.Application
import Scaffold.Proofs.Path.Segment

/-!
# Where the files of an entity stand

The name of an entity becomes a step of the paths of its files, and the beginning of their own
names. A file has a place exactly if the name does not climb (`Model.exists_path_eq_ok_iff`). Where
it is a single step, files of entities with different names stand apart from each other, and so do
the five files of one.
-/

namespace Scaffold

open Scaffold.Path (Component IsName)

namespace Model

/-- The names below the directory of an entity that lead to its file. -/
def below (name : String) : Model → List String
  | services => [name ++ ".services.js"]
  | listController => [name ++ ".controller.js"]
  | editController => [name ++ ".edit.controller.js"]
  | listView => ["views", name ++ ".list.html"]
  | editView => ["views", name ++ ".edit.html"]

theorem location_eq_intercalate (e : Entity) (model : Model) :
    model.location e = "/".intercalate ("app" :: "components" :: e.name :: model.below e.name) := by
  apply String.toList_inj.1
  cases model <;>
    simp [location, below, Entity.viewsDirectory, Entity.directory, String.intercalate_cons_cons]

theorem segments_location (e : Entity) (model : Model) :
    Path.segments (model.location e).toList =
      ["app".toList, "components".toList] ++ Path.segments e.name.toList ++
        (model.below e.name).flatMap fun s => Path.segments s.toList := by
  rw [location_eq_intercalate, Path.toList_intercalate,
    Path.segments_joinSegments_flatMap (by simp)]
  simp [List.flatMap_map, Path.segments]

/-- With a longer ending, no segment of a name leads upward that did not do so before. -/
theorem up_not_mem_segments_append {name ending : String}
    (h : ['.', '.'] ∉ Path.segments name.toList) (hlong : 2 < ending.length)
    (hslash : '/' ∉ ending.toList) : ['.', '.'] ∉ Path.segments (name ++ ending).toList := by
  obtain ⟨front, last, hname, happend⟩ := Path.exists_segments_append hslash name.toList
  rw [String.toList_append, happend, List.mem_append, List.mem_singleton]
  -- only the last segment is another one now, and it is too long
  rintro (hmem | hlast)
  · exact h (hname ▸ List.mem_append_left _ hmem)
  · have hlength : 2 = last.length + ending.length := by
      simpa [String.length_toList] using congrArg List.length hlast
    omega

theorem up_not_mem_segments_below {name : String} (h : ['.', '.'] ∉ Path.segments name.toList)
    (model : Model) :
    ['.', '.'] ∉ (model.below name).flatMap fun s => Path.segments s.toList := by
  cases model <;>
    simp only [below, List.flatMap_cons, List.flatMap_nil, List.append_nil, List.mem_append, not_or]
  case services | listController | editController =>
    exact up_not_mem_segments_append h (by decide) (by decide)
  case listView | editView =>
    exact ⟨by decide, up_not_mem_segments_append h (by decide) (by decide)⟩

/-- Whatever the name of an entity is, the locations of its files are not absolute. -/
theorem not_isAbsolute_location (e : Entity) (model : Model) :
    Path.isAbsolute ⟨model.location e⟩ = false := by
  cases model <;>
    simp [location, Entity.viewsDirectory, Entity.directory, Path.isAbsolute, Path.chars,
      String.toList_append]

theorem escape?_location_eq_none_iff (e : Entity) (model : Model) :
    Path.escape? ⟨model.location e⟩ = none ↔ ['.', '.'] ∉ Path.segments e.name.toList := by
  have hrelative : (model.location e).toList.head? ≠ some '/' := by
    simpa [Path.isAbsolute, Path.chars] using not_isAbsolute_location e model
  have hescape : Path.escape? ⟨model.location e⟩ = none ↔
      ['.', '.'] ∉ Path.segments (model.location e).toList :=
    Path.escape?_eq_none_iff.trans (and_iff_right hrelative)
  rw [hescape, segments_location]
  constructor
  · intro h hmem
    exact h (List.mem_append_left _ (List.mem_append_right _ hmem))
  · intro h hmem
    rcases List.mem_append.1 hmem with hmem | hmem
    · rcases List.mem_append.1 hmem with hmem | hmem
      · exact absurd hmem (by decide)
      · exact h hmem
    · exact up_not_mem_segments_below h model hmem

/-- The file of an entity has a place in the application exactly if no segment of the entity's name
leads upward. -/
theorem exists_path_eq_ok_iff (e : Entity) (model : Model) :
    (∃ path, model.path e = .ok path) ↔ ['.', '.'] ∉ Path.segments e.name.toList := by
  rw [← escape?_location_eq_none_iff e model]
  constructor
  · rintro ⟨path, hpath⟩
    rw [← ContainedPath.ofText_eq_ok_iff.1 hpath]
    exact path.contained
  · intro h
    exact ⟨⟨_, h⟩, ContainedPath.ofText_eq_ok_iff.2 rfl⟩

end Model

theorem Path.IsName.append {name ending : String} (h : IsName name)
    (hlong : 2 < ending.length) (hslash : '/' ∉ ending.toList) : IsName (name ++ ending) := by
  have hlength : 2 < (name ++ ending).length := by
    rw [String.length_append]
    omega
  have hne {short : String} (hshort : ¬ 2 < short.length) : name ++ ending ≠ short := by
    rintro rfl
    exact hshort hlength
  refine ⟨hne (by decide), hne (by decide), hne (by decide), ?_⟩
  rw [String.toList_append, List.mem_append]
  exact fun hmem => hmem.elim h.slash_not_mem hslash

namespace Model

section
variable {e : Entity} (h : IsName e.name) (model : Model)
include h

theorem isName_steps : ∀ s ∈ "app" :: "components" :: e.name :: model.below e.name, IsName s := by
  have hsteps : ∀ s ∈ ["app", "components", "views"], IsName s := by
    intro s hs
    simp only [List.mem_cons, List.not_mem_nil, or_false] at hs
    rcases hs with rfl | rfl | rfl <;> exact ⟨by decide, by decide, by decide, by decide⟩
  have hbelow : ∀ s ∈ model.below e.name, IsName s := by
    cases model <;> simp only [below, List.forall_mem_cons, List.not_mem_nil]
    case services => exact ⟨h.append (by decide) (by decide), by simp⟩
    case listController => exact ⟨h.append (by decide) (by decide), by simp⟩
    case editController => exact ⟨h.append (by decide) (by decide), by simp⟩
    case listView =>
      exact ⟨hsteps _ (by simp), h.append (by decide) (by decide), by simp⟩
    case editView =>
      exact ⟨hsteps _ (by simp), h.append (by decide) (by decide), by simp⟩
  intro s hs
  rcases List.mem_cons.1 hs with rfl | hs
  · exact hsteps _ (by simp)
  rcases List.mem_cons.1 hs with rfl | hs
  · exact hsteps _ (by simp)
  rcases List.mem_cons.1 hs with rfl | hs
  · exact h
  · exact hbelow s hs

/-- The file of an entity stands below a directory of its own. -/
theorem components_location :
    Path.components ⟨model.location e⟩ =
      .name "app" :: .name "components" :: .name e.name :: (model.below e.name).map .name := by
  rw [location_eq_intercalate, Path.components_intercalate (by simp) (isName_steps h model)]
  rfl

theorem exists_path_eq_ok : ∃ path, model.path e = .ok path := by
  have hescape : Path.escape? ⟨model.location e⟩ = none := by
    rw [location_eq_intercalate]
    exact Path.escape?_intercalate (by simp) (isName_steps h model)
  exact ⟨⟨⟨model.location e⟩, hescape⟩, ContainedPath.ofText_eq_ok_iff.2 rfl⟩

end

end Model

end Scaffold
