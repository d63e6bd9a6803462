import Scaffold.Proofs.Assembly.Failures
import Scaffold.Proofs.Assembly.Location
import Scaffold.Proofs.Path.Join

/-!
# Names that lead to the same files

The name of an entity stands twice in the path of a file, once as the directory and once as the
beginning of the file's own name (`Model.components_location_of_segments`). Neither the endings of
the files nor the directory of the views make up for a difference between two names: files of two
entities stand in one place only if they come from one model, and the names have the same steps and
the same last segment (`Model.components_location_eq_iff`).
-/

namespace Scaffold

open Scaffold.Path (Component segments innerComponent? isIdle)

/-! ### Steps of a name -/

namespace Path

/-- The segments of a text that mean something. -/
def steps (text : List Char) : List (List Char) := (segments text).filter fun s => !isIdle s

/-- Segments that do not climb mean the names that they spell, but for those that mean nothing. -/
theorem filterMap_innerComponent?_of_up_not_mem {pieces : List (List Char)}
    (h : ['.', '.'] ∉ pieces) : pieces.filterMap innerComponent? =
      (pieces.filter fun s => !isIdle s).map fun s => .name (String.ofList s) := by
  induction pieces with
  | nil => rfl
  | cons s pieces ih =>
    simp only [List.mem_cons, not_or] at h
    by_cases hidle : isIdle s = true
    · simp [innerComponent?_of_isIdle hidle, hidle, ih h.2]
    · simp [innerComponent?, hidle, Ne.symm h.1, ih h.2]

theorem length_filterMap_innerComponent?_singleton_le (segment : List Char) :
    ([segment].filterMap innerComponent?).length ≤ 1 :=
  List.length_filterMap_le _ _

end Path

namespace Model

/-! ### Paths of an entity's files -/

/-- What is put behind the name of an entity. -/
def ending : Model → String
  | services => ".services.js"
  | listController => ".controller.js"
  | editController => ".edit.controller.js"
  | listView => ".list.html"
  | editView => ".edit.html"

/-- The directories between that of an entity and its file. -/
def between : Model → List String
  | services | listController | editController => []
  | listView | editView => ["views"]

theorem below_eq (name : String) (model : Model) :
    model.below name = model.between ++ [name ++ model.ending] := by
  cases model <;> rfl

theorem slash_not_mem_ending (model : Model) : '/' ∉ model.ending.toList := by
  cases model <;> decide

theorem two_lt_length_ending (model : Model) : 2 < model.ending.toList.length := by
  cases model <;> decide

/-- Of the endings only one is a part of another. -/
theorem eq_or_of_ending_suffix {model model' : Model}
    (h : model.ending.toList <:+ model'.ending.toList) :
    model = model' ∨ model = .listController ∧ model' = .editController := by
  revert h
  cases model <;> cases model' <;> decide

theorem innerComponent?_append_ending (last : List Char) (model : Model) :
    innerComponent? (last ++ model.ending.toList) =
      some (.name (String.ofList (last ++ model.ending.toList))) := by
  have hlong := model.two_lt_length_ending
  have hne (short : List Char) (hshort : short.length ≤ 2) : last ++ model.ending.toList ≠ short := by
    rintro rfl
    rw [List.length_append] at hshort
    omega
  simp only [innerComponent?, isIdle, Bool.or_eq_true, List.isEmpty_iff, beq_iff_eq,
    hne [] (by decide), hne ['.'] (by decide), hne ['.', '.'] (by decide), or_self, if_false]

/-- What the path of a file means, from the last segment of the entity's name and those
before it. -/
theorem components_location_of_segments {e : Entity} {front : List (List Char)} {last : List Char}
    (h : segments e.name.toList = front ++ [last]) (model : Model) :
    Path.components ⟨model.location e⟩ =
      [.name "app", .name "components"] ++ (front.filterMap innerComponent? ++
        [last].filterMap innerComponent? ++ model.between.map .name ++
        front.filterMap innerComponent?) ++ [.name (String.ofList (last ++ model.ending.toList))] := by
  obtain ⟨front', last', hname, hmore⟩ :=
    Path.exists_segments_append model.slash_not_mem_ending e.name.toList
  obtain ⟨rfl, hlast⟩ := List.append_inj' (h.symm.trans hname) rfl
  obtain rfl := List.singleton_inj.1 hlast
  have hbetween : (model.between.flatMap fun s => segments s.toList).filterMap innerComponent? =
      model.between.map .name := by
    cases model <;> rfl
  have hfile : (segments (e.name ++ model.ending).toList).filterMap innerComponent? =
      front.filterMap innerComponent? ++ [.name (String.ofList (last ++ model.ending.toList))] := by
    have hone := innerComponent?_append_ending last model
    rw [String.toList_append, hmore, List.filterMap_append, List.filterMap_cons, hone]
    rfl
  have hcons : segments (model.location e).toList =
      "app".toList :: ("components".toList :: (front ++ [last]) ++
        ((model.between.flatMap fun s => segments s.toList) ++
          segments (e.name ++ model.ending).toList)) := by
    rw [segments_location, h, below_eq, List.flatMap_append, List.flatMap_singleton]
    simp only [List.cons_append, List.nil_append, List.append_assoc]
  have happ : (Path.firstComponent? "app".toList false).toList = [.name "app"] := rfl
  have hcomponents : innerComponent? "components".toList = some (.name "components") := rfl
  rw [Path.components, Path.chars, hcons, Path.componentsOf, List.filterMap_append,
    List.filterMap_append, hbetween, hfile, List.filterMap_cons, hcomponents, List.filterMap_append]
  simp only [List.cons_append, List.isEmpty_cons, happ, List.append_assoc, List.nil_append]

end Model

/-! ### Names that meet -/

/-- Two entities whose files stand in the same places: their names have the same steps, and the same
segment, which may mean nothing, at the end. -/
structure Entity.SharesPlaces (e e' : Entity) : Prop where
  steps : Path.steps e.name.toList = Path.steps e'.name.toList
  last : (segments e.name.toList).getLast? = (segments e'.name.toList).getLast?

namespace Path

/-- Segments that do not climb mean the same exactly if they are the same, but for those that mean
nothing. -/
theorem filterMap_innerComponent?_eq_iff {pieces pieces' : List (List Char)}
    (h : ['.', '.'] ∉ pieces) (h' : ['.', '.'] ∉ pieces') :
    pieces.filterMap innerComponent? = pieces'.filterMap innerComponent? ↔
      pieces.filter (fun s => !isIdle s) = pieces'.filter fun s => !isIdle s := by
  rw [filterMap_innerComponent?_of_up_not_mem h, filterMap_innerComponent?_of_up_not_mem h']
  exact List.map_inj_right fun s s' heq => String.ofList_injective (Component.name.inj heq)

end Path

/-- A list with at most one more between it and its copy is known from the whole. -/
theorem eq_of_append_copy_eq {α : Type} {a a' l l' m : List α} (hl : l.length ≤ 1)
    (hl' : l'.length ≤ 1) (h : a ++ l ++ m ++ a = a' ++ l' ++ m ++ a') : a = a' ∧ l = l' := by
  have hlength := congrArg List.length h
  simp only [List.length_append] at hlength
  -- the two copies have an even length together, so that nothing is left for a difference in between
  have ha : a.length = a'.length := by omega
  simp only [List.append_assoc] at h
  obtain ⟨rfl, hrest⟩ := List.append_inj h ha
  exact ⟨rfl, List.append_cancel_right hrest⟩

theorem Entity.sharesPlaces_iff {e e' : Entity} {front front' : List (List Char)}
    {last last' : List Char} (h : segments e.name.toList = front ++ [last])
    (h' : segments e'.name.toList = front' ++ [last']) (hup : ['.', '.'] ∉ front)
    (hup' : ['.', '.'] ∉ front') : e.SharesPlaces e' ↔
      front.filterMap innerComponent? = front'.filterMap innerComponent? ∧ last = last' := by
  have hlast : (segments e.name.toList).getLast? = (segments e'.name.toList).getLast? ↔
      last = last' := by
    simp [h, h']
  rw [Path.filterMap_innerComponent?_eq_iff hup hup', ← hlast]
  constructor
  · rintro ⟨hsteps, heq⟩
    obtain rfl := hlast.1 heq
    rw [Path.steps, Path.steps, h, h', List.filter_append, List.filter_append] at hsteps
    exact ⟨List.append_cancel_right hsteps, heq⟩
  · rintro ⟨hsteps, heq⟩
    obtain rfl := hlast.1 heq
    refine ⟨?_, heq⟩
    rw [Path.steps, Path.steps, h, h', List.filter_append, List.filter_append, hsteps]

namespace Model

section
variable {front front' : List (List Char)} {last last' : List Char} {between : List Component}
  (hlast : ['.', '.'] ∉ [last]) (hlast' : ['.', '.'] ∉ [last'])
include hlast hlast'

/-- Were one file called like a list controller and like an edit controller, the directories would
differ in one step that stands between two equal halves. -/
theorem false_of_controllers
    (hfile : last ++ listController.ending.toList = last' ++ editController.ending.toList)
    (hplace : front.filterMap innerComponent? ++ [last].filterMap innerComponent? ++ between ++
        front.filterMap innerComponent? =
      front'.filterMap innerComponent? ++ [last'].filterMap innerComponent? ++ between ++
        front'.filterMap innerComponent?) : False := by
  have hmore : editController.ending.toList = ".edit".toList ++ listController.ending.toList := by
    decide
  rw [hmore, ← List.append_assoc] at hfile
  have hlong : last = last' ++ ".edit".toList := List.append_cancel_right hfile
  have hlength : last.length = last'.length + 5 := by
    rw [hlong, List.length_append]
    rfl
  have hcounts : isIdle last = false := by
    rw [isIdle, Bool.or_eq_false_iff, List.isEmpty_eq_false_iff, beq_eq_false_iff_ne]
    constructor <;> rintro rfl <;> simp at hlength
  obtain ⟨-, hone⟩ := eq_of_append_copy_eq
    (Path.length_filterMap_innerComponent?_singleton_le last)
    (Path.length_filterMap_innerComponent?_singleton_le last') hplace
  have hmem : last ∈ [last'].filter fun s => !isIdle s := by
    rw [← (Path.filterMap_innerComponent?_eq_iff hlast hlast').1 hone]
    simp [hcounts]
  have heq : last = last' := List.mem_singleton.1 (List.mem_filter.1 hmem).1
  rw [heq] at hlength
  omega

end

variable {e e' : Entity} {model model' : Model}

/-- The file of one entity stands where that of another does, exactly if both come from one model
and the entities share all places. -/
theorem components_location_eq_iff (h : ['.', '.'] ∉ segments e.name.toList)
    (h' : ['.', '.'] ∉ segments e'.name.toList) :
    Path.components ⟨model.location e⟩ = Path.components ⟨model'.location e'⟩ ↔
      model = model' ∧ e.SharesPlaces e' := by
  obtain ⟨front, last, hname⟩ := (List.eq_nil_or_concat (segments e.name.toList)).resolve_left
    (Path.segments_ne_nil _)
  obtain ⟨front', last', hname'⟩ := (List.eq_nil_or_concat (segments e'.name.toList)).resolve_left
    (Path.segments_ne_nil _)
  rw [List.concat_eq_append] at hname hname'
  rw [hname, List.mem_append, not_or] at h
  rw [hname', List.mem_append, not_or] at h'
  rw [components_location_of_segments hname, components_location_of_segments hname',
    Entity.sharesPlaces_iff hname hname' h.1 h'.1]
  constructor
  · intro heq
    obtain ⟨hplace, hfile⟩ := List.append_inj' heq rfl
    obtain ⟨-, hplace⟩ := List.append_inj hplace rfl
    have hfile : last ++ model.ending.toList = last' ++ model'.ending.toList :=
      String.ofList_injective (Component.name.inj (List.singleton_inj.1 hfile))
    have hmodels : model = model' ∨ model = .listController ∧ model' = .editController ∨
        model' = .listController ∧ model = .editController := by
      rcases List.suffix_or_suffix_of_suffix ⟨last, hfile⟩ (List.suffix_append last' _) with hs | hs
      · exact (eq_or_of_ending_suffix hs).imp_right .inl
      · exact (eq_or_of_ending_suffix hs).imp Eq.symm .inr
    rcases hmodels with rfl | ⟨rfl, rfl⟩ | ⟨rfl, rfl⟩
    · obtain ⟨hfront, -⟩ := eq_of_append_copy_eq
        (Path.length_filterMap_innerComponent?_singleton_le last)
        (Path.length_filterMap_innerComponent?_singleton_le last') hplace
      exact ⟨rfl, hfront, List.append_cancel_right hfile⟩
    · exact (false_of_controllers h.2 h'.2 hfile hplace).elim
    · exact (false_of_controllers h'.2 h.2 hfile.symm hplace.symm).elim
  · rintro ⟨rfl, hfront, rfl⟩
    rw [hfront]

theorem path_eq_error_of_up_mem (h : ['.', '.'] ∈ segments e.name.toList) (model : Model) :
    model.path e = .error (.escapingPath (model.location e)) := by
  cases hpath : model.path e with
  | ok path => exact absurd h ((exists_path_eq_ok_iff e model).1 ⟨path, hpath⟩)
  | error cause => rw [(of_path_eq_error hpath).2]

theorem startsWith_location (e : Entity) (model : Model) :
    Path.startsWith ⟨model.location e⟩ ⟨"app/components"⟩ = true := by
  obtain ⟨front, last, hname⟩ := (List.eq_nil_or_concat (segments e.name.toList)).resolve_left
    (Path.segments_ne_nil _)
  rw [List.concat_eq_append] at hname
  have hdirectory : Path.components ⟨"app/components"⟩ = [.name "app", .name "components"] := by
    decide
  rw [Path.startsWith, List.isPrefixOf_iff_prefix, hdirectory,
    components_location_of_segments hname, List.append_assoc]
  exact List.prefix_append _ _

/-- A name that leads upward has no file in any place, and each other name has all of its files
below `app/components`. Two entities share all places or none, and a place is shared by files of
one model. -/
theorem paths_exact (e : Entity) :
    (['.', '.'] ∈ segments e.name.toList →
      ∀ model : Model, model.path e = .error (.escapingPath (model.location e))) ∧
    (['.', '.'] ∉ segments e.name.toList →
      ∀ model : Model, ∃ path, model.path e = .ok path ∧
        path.path.startsWith ⟨"app/components"⟩ = true) ∧
    ∀ (e' : Entity) (paths paths' : Model → ContainedPath),
      (∀ model : Model, model.path e = .ok (paths model)) →
      (∀ model : Model, model.path e' = .ok (paths' model)) →
      (∀ model model', (paths model).path.same (paths' model').path = true ↔
        model = model' ∧ e.SharesPlaces e') ∧
      ((∀ model, (paths model).path.same (paths' model).path = true) ∨
        ∀ model model', (paths model).path.same (paths' model').path = false) := by
  refine ⟨path_eq_error_of_up_mem, fun hup model => ?_, fun e' paths paths' hpaths hpaths' => ?_⟩
  · obtain ⟨path, hpath⟩ := (exists_path_eq_ok_iff e model).2 hup
    refine ⟨path, hpath, ?_⟩
    rw [← startsWith_location e model, ← ContainedPath.ofText_eq_ok_iff.1 hpath]
    rfl
  · have hup := (exists_path_eq_ok_iff e .services).1 ⟨_, hpaths .services⟩
    have hup' := (exists_path_eq_ok_iff e' .services).1 ⟨_, hpaths' .services⟩
    have hsame (model model' : Model) : (paths model).path.same (paths' model').path = true ↔
        model = model' ∧ e.SharesPlaces e' := by
      have htext : (paths model).path = ⟨model.location e⟩ :=
        congrArg Path.mk (ContainedPath.ofText_eq_ok_iff.1 (hpaths model))
      have htext' : (paths' model').path = ⟨model'.location e'⟩ :=
        congrArg Path.mk (ContainedPath.ofText_eq_ok_iff.1 (hpaths' model'))
      rw [htext, htext', ← components_location_eq_iff hup hup', ← Path.key_eq_iff, Path.same,
        beq_iff_eq]
    refine ⟨hsame, ?_⟩
    by_cases hshares : e.SharesPlaces e'
    · exact .inl fun model => (hsame model model).2 ⟨rfl, hshares⟩
    · refine .inr fun model model' => Bool.eq_false_iff.2 fun h => hshares ?_
      exact ((hsame model model').1 h).2

/-- One name in two spellings. -/
theorem paths_exact_of_parts :
    ∃ paths paths' : Model → ContainedPath,
      (∀ model : Model, model.path ⟨"cars//parts", "part", [], []⟩ = .ok (paths model)) ∧
      (∀ model : Model, model.path ⟨"./cars/parts", "piece", [], []⟩ = .ok (paths' model)) ∧
      ∀ model, (paths model).path.same (paths' model).path = true := by
  obtain ⟨-, hplaced, hmeet⟩ := paths_exact ⟨"cars//parts", "part", [], []⟩
  obtain ⟨-, hplaced', -⟩ := paths_exact ⟨"./cars/parts", "piece", [], []⟩
  choose paths hpaths using hplaced (by decide)
  choose paths' hpaths' using hplaced' (by decide)
  obtain ⟨hsame, -⟩ := hmeet _ paths paths' (fun model => (hpaths model).1)
    fun model => (hpaths' model).1
  exact ⟨paths, paths', fun model => (hpaths model).1, fun model => (hpaths' model).1,
    fun model => (hsame model model).2 ⟨rfl, by decide, by decide⟩⟩

end Model

end Scaffold
