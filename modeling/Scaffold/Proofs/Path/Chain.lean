import Scaffold.Proofs.Error.Paths
import Scaffold.Proofs.Path.Join

/-!
# Contained paths joined one after the other

A text is the text of a contained path unless it begins with a slash or has a piece `..` between its
slashes (`ContainedPath.map_text_ofText`). What such paths mean when they are joined one after the
other is what they mean side by side, where a `.` counts at the very beginning only
(`ContainedPath.components_joinTexts`). A text is refused behind a path for what it is refused for
alone (`ContainedPath.joinText_eq_error_iff`), so that a chain fails with the first text that fails
by itself (`ContainedPath.ofTexts_exact`).
-/

namespace Scaffold

namespace Path

open Component (root here up)

/-- The pieces of a text are those that a list falls into at the slashes. -/
theorem segments_eq_splitOn (text : List Char) : segments text = text.splitOn '/' := by
  induction text with
  | nil => rfl
  | cons c text ih =>
    rw [List.splitOn_eq_splitOnP] at ih ⊢
    rw [segments, ih, List.splitOnP_cons_eq_if_modifyHead]
    by_cases hc : c = '/'
    · simp [hc]
    · cases h : text.splitOnP (· == '/') with
      | nil => exact absurd h (List.splitOnP_ne_nil _ _)
      | cons first rest => simp [hc]

/-! ### Components side by side -/

/-- Components without each `.` that does not stand first. -/
def settled : List Component → List Component
  | [] => []
  | c :: cs => c :: cs.filter (· ≠ here)

theorem settled_append (as bs : List Component) :
    settled (as ++ bs) = if as = [] then settled bs else settled as ++ bs.filter (· ≠ here) := by
  cases as with
  | nil => rfl
  | cons a as => simp [settled]

/-- Settled components may be settled again, with others behind them. -/
theorem settled_settled_append (as bs : List Component) :
    settled (settled as ++ bs) = settled (as ++ bs) := by
  cases as with
  | nil => rfl
  | cons a as => simp [settled, List.filter_append]

/-- The components of a path are settled. -/
theorem settled_components (p : Path) : settled p.components = p.components := by
  have htail := (not_mem_tail_components p).2
  cases hp : p.components with
  | nil => rfl
  | cons c cs =>
    rw [hp, List.tail_cons] at htail
    rw [settled, List.filter_eq_self.2]
    intro d hd
    simp only [decide_eq_true_eq]
    rintro rfl
    exact htail hd

/-- A joined path means what both mean side by side. -/
theorem components_join_eq_settled {p q : Path} (hq : q.isAbsolute = false) :
    (p.join q).components = settled (p.components ++ q.components) := by
  rw [components_join hq, settled_append, settled_components, settled_components]

end Path

namespace ContainedPath

open Scaffold.Path (settled)
open Scaffold.Path.Component (root up)

/-- A contained path with further texts behind it, joined from first to last. -/
def joinTexts (p : ContainedPath) (texts : List String) : Except ProjectError ContainedPath :=
  texts.foldlM joinText p

/-- The path of a text with further texts behind it. -/
def ofTexts (first : String) (rest : List String) : Except ProjectError ContainedPath := do
  (← ofText first).joinTexts rest

/-- Why a text is not the text of a contained path. -/
def refusal? (text : String) : Option ProjectError :=
  match ofText text with
  | .ok _ => none
  | .error e => some e

/-- What becomes of a text by itself. -/
theorem map_text_ofText (s : String) :
    (ofText s).map text =
      if s.toList.head? = some '/' then .error (.absolutePath s)
      else if ['.', '.'] ∈ s.toList.splitOn '/' then .error (.escapingPath s)
      else .ok s := by
  rw [← Path.segments_eq_splitOn]
  have hescape : Path.escape? ⟨s⟩ =
      if s.toList.head? = some '/' then some .absolute
      else if ['.', '.'] ∈ Path.segments s.toList then some .climbs else none := by
    by_cases hup : ['.', '.'] ∈ Path.segments s.toList <;>
      simp [Path.escape?_eq, Path.isAbsolute, Path.chars, hup]
  cases h : ofText s with
  | ok p =>
    have hp := ofText_eq_ok_iff.1 h
    have hcontained : Path.escape? ⟨s⟩ = none := hp ▸ p.contained
    rw [hescape] at hcontained
    split at hcontained
    · cases hcontained
    · split at hcontained
      · cases hcontained
      · simp_all [Except.map]
  | error e =>
    obtain ⟨escape, hsome, rfl⟩ := ofText_eq_error_iff.1 h
    rw [hescape] at hsome
    split at hsome
    · cases hsome
      rw [if_pos ‹_›]
      rfl
    · split at hsome
      · cases hsome
        rw [if_neg ‹_›, if_pos ‹_›]
        rfl
      · cases hsome

theorem refusal?_eq_some_iff {s : String} {e : ProjectError} :
    refusal? s = some e ↔ ofText s = .error e := by
  rw [refusal?]
  split <;> simp_all

/-! ### One text more -/

theorem joinText_eq_ok_iff {p q : ContainedPath} {s : String} :
    p.joinText s = .ok q ↔ ∃ r, ofText s = .ok r ∧ p.path.join r.path = q.path := by
  simp only [joinText, join, ofText, mapError_eq_ok_iff, bind_eq_ok_iff, pure, Except.pure,
    Except.ok.injEq]
  refine exists_congr fun r => and_congr_right fun _ => ?_
  obtain ⟨path, hpath⟩ := q
  simp

/-- A text is refused behind a path for what it is refused for alone. -/
theorem joinText_eq_error_iff {p : ContainedPath} {s : String} {e : ProjectError} :
    p.joinText s = .error e ↔ ofText s = .error e := by
  simp only [joinText, join, ofText, mapError_eq_error_iff, bind_eq_error_iff, pure, Except.pure,
    reduceCtorEq, and_false, exists_false, or_false]

/-! ### Chains -/

theorem components_joinTexts {p q : ContainedPath} {texts : List String}
    (h : p.joinTexts texts = .ok q) :
    q.path.components =
      settled (p.path.components ++ texts.flatMap fun s => Path.components ⟨s⟩) := by
  induction texts generalizing p with
  | nil =>
    obtain rfl : p = q := Except.ok.inj h
    rw [List.flatMap_nil, List.append_nil, Path.settled_components]
  | cons s texts ih =>
    rw [joinTexts, List.foldlM_cons] at h
    obtain ⟨next, hnext, h⟩ := bind_eq_ok_iff.1 h
    obtain ⟨r, hr, hpath⟩ := joinText_eq_ok_iff.1 hnext
    have hrelative : r.path.isAbsolute = false := by
      simpa [Path.isAbsolute] using (Path.escape?_eq_none_iff.1 r.contained).1
    have hs : r.path = ⟨s⟩ := congrArg Path.mk (ofText_eq_ok_iff.1 hr)
    rw [ih h, ← hpath, Path.components_join_eq_settled hrelative, hs,
      Path.settled_settled_append, List.append_assoc, List.flatMap_cons]

/-- A chain fails with the first of its texts that fails by itself. -/
theorem joinTexts_eq_error_iff {p : ContainedPath} {texts : List String} {e : ProjectError} :
    p.joinTexts texts = .error e ↔ texts.findSome? refusal? = some e := by
  induction texts generalizing p with
  | nil => simp [joinTexts, pure, Except.pure]
  | cons s texts ih =>
    rw [joinTexts, List.foldlM_cons, List.findSome?_cons]
    cases h : p.joinText s with
    | ok next =>
      obtain ⟨r, hr, -⟩ := joinText_eq_ok_iff.1 h
      have hnone : refusal? s = none := by rw [refusal?, hr]
      rw [hnone, ok_bind]
      exact ih
    | error cause =>
      have hsome : refusal? s = some cause :=
        refusal?_eq_some_iff.2 (joinText_eq_error_iff.1 h)
      rw [hsome]
      exact ⟨fun h => congrArg some (Except.error.inj h),
        fun h => congrArg Except.error (Option.some.inj h)⟩

theorem ofTexts_eq_error_iff {first : String} {rest : List String} {e : ProjectError} :
    ofTexts first rest = .error e ↔ (first :: rest).findSome? refusal? = some e := by
  rw [ofTexts, List.findSome?_cons]
  cases h : ofText first with
  | ok p =>
    have hnone : refusal? first = none := by rw [refusal?, h]
    rw [hnone]
    exact joinTexts_eq_error_iff
  | error cause =>
    rw [refusal?_eq_some_iff.2 h]
    exact ⟨fun h => congrArg some (Except.error.inj h),
      fun h => congrArg Except.error (Option.some.inj h)⟩

theorem components_ofTexts {first : String} {rest : List String} {q : ContainedPath}
    (h : ofTexts first rest = .ok q) :
    q.path.components = settled ((first :: rest).flatMap fun s => Path.components ⟨s⟩) := by
  obtain ⟨p, hp, h⟩ := bind_eq_ok_iff.1 h
  have hfirst : p.path = ⟨first⟩ := congrArg Path.mk (ofText_eq_ok_iff.1 hp)
  rw [components_joinTexts h, hfirst, List.flatMap_cons]

/-- Which texts are contained paths, and what becomes of them in a chain of any length: it fails
with the first text that is none, and else means what its texts mean side by side, with a `.` at the
very beginning only. A chain stays contained, and a text that goes on with it is refused just as it
is alone. -/
theorem ofTexts_exact (first : String) (rest : List String) :
    (∀ s, (ofText s).map text =
      if s.toList.head? = some '/' then .error (.absolutePath s)
      else if ['.', '.'] ∈ s.toList.splitOn '/' then .error (.escapingPath s)
      else .ok s) ∧
    (∀ e, ofTexts first rest = .error e ↔ (first :: rest).findSome? refusal? = some e) ∧
    ∀ q, ofTexts first rest = .ok q →
      q.path.components = settled ((first :: rest).flatMap fun s => Path.components ⟨s⟩) ∧
      root ∉ q.path.components ∧ up ∉ q.path.components ∧
      ∀ s e, q.joinText s = .error e ↔ ofText s = .error e := by
  refine ⟨map_text_ofText, fun e => ofTexts_eq_error_iff, fun q h => ?_⟩
  obtain ⟨hroot, hup⟩ := Path.escape?_eq_none_iff_not_mem.1 q.contained
  exact ⟨components_ofTexts h, hroot, hup, fun s e => joinText_eq_error_iff⟩

/-- A chain with a `.` in every place, an empty text and a slash at the end. -/
theorem ofTexts_exact_of_dots :
    ∃ q, ofTexts "./a" ["./b/./c", "", ".", "d/"] = .ok q ∧
      q.path.components = [.here, .name "a", .name "b", .name "c", .name "d"] ∧
      q.joinText "../e" = .error (.escapingPath "../e") := by
  obtain ⟨-, herror, hok⟩ := ofTexts_exact "./a" ["./b/./c", "", ".", "d/"]
  cases h : ofTexts "./a" ["./b/./c", "", ".", "d/"] with
  | ok q =>
    obtain ⟨hcomponents, -, -, hjoin⟩ := hok q h
    refine ⟨q, rfl, hcomponents.trans (by decide +kernel), (hjoin _ _).2 ?_⟩
    exact refusal?_eq_some_iff.1 (by decide +kernel)
  | error e =>
    have hnone : ("./a" :: ["./b/./c", "", ".", "d/"]).findSome? refusal? = none := by decide +kernel
    exact absurd ((herror e).1 h) (by simp [hnone])

end ContainedPath

end Scaffold
