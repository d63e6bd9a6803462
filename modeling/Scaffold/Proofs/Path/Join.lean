import Mathlib.Data.List.Basic
import Mathlib.Data.List.Induction
import Scaffold.Proofs.Path.Components

/-!
# Joined paths by components

A path joined to another that is not absolute means the components of the one and then those of the
other, where a leading `.` counts only behind nothing (`components_join`). So a path put together
from the first components of another means just these (`components_ofComponents`).
-/

namespace Scaffold

namespace Path

open Component (root here name)

/-! ### Components of a path -/

theorem innerComponent?_ne (segment : List Char) :
    innerComponent? segment ≠ some root ∧ innerComponent? segment ≠ some here := by
  refine ⟨innerComponent?_ne_root segment, ?_⟩
  simp only [innerComponent?]
  split
  · simp
  · split <;> simp

theorem firstComponent?_of_isAbsolute_eq_false {p : Path} (h : p.isAbsolute = false)
    {first : List Char} {rest : List (List Char)} (hs : segments p.chars = first :: rest) :
    (firstComponent? first rest.isEmpty).toList.filter (· ≠ here) =
      (innerComponent? first).toList := by
  by_cases hfirst : first = []
  · by_cases hrest : rest = []
    · simp [firstComponent?, innerComponent?, isIdle, hfirst, hrest]
    · -- an empty segment before another one is a slash at the beginning
      have hjoin := joinSegments_segments p.chars
      rw [hs, joinSegments_cons hrest, hfirst] at hjoin
      simp [isAbsolute, ← hjoin] at h
  · by_cases hhere : first = ['.']
    · simp [firstComponent?, innerComponent?, isIdle, hhere]
    · have hne := (innerComponent?_ne first).2
      simp only [firstComponent?, List.isEmpty_iff, hfirst, hhere, if_false]
      cases hc : innerComponent? first with
      | none => rfl
      | some c =>
        have : c ≠ here := fun heq => hne (heq ▸ hc)
        simp [this]

/-- What the segments of a path mean behind other segments. -/
theorem filterMap_innerComponent?_segments {p : Path} (h : p.isAbsolute = false) :
    (segments p.chars).filterMap innerComponent? = p.components.filter (· ≠ here) := by
  cases hs : segments p.chars with
  | nil => exact absurd hs (segments_ne_nil _)
  | cons first rest =>
    have hrest : (rest.filterMap innerComponent?).filter (· ≠ here) =
        rest.filterMap innerComponent? := by
      rw [List.filter_eq_self]
      intro c hc
      obtain ⟨s, -, hs⟩ := List.mem_filterMap.1 hc
      have hne := (innerComponent?_ne s).2
      simp only [decide_eq_true_eq]
      rintro rfl
      exact hne hs
    rw [components, hs, componentsOf, List.filter_append, hrest,
      firstComponent?_of_isAbsolute_eq_false h hs]
    cases hc : innerComponent? first <;> simp [hc]

/-! ### Joining -/

/-- More segments behind those of a text that is not empty. -/
theorem componentsOf_segments_append {text : List Char} (h : text ≠ []) {more : List (List Char)}
    (hmore : more ≠ []) : componentsOf (segments text ++ more) =
      componentsOf (segments text) ++ more.filterMap innerComponent? := by
  cases hs : segments text with
  | nil => exact absurd hs (segments_ne_nil _)
  | cons first rest =>
    have hsome : (rest ++ more).isEmpty = false := by simp [hmore]
    rw [List.cons_append, componentsOf, componentsOf, List.filterMap_append, hsome,
      List.append_assoc]
    cases rest with
    | nil =>
      have hfirst : first ≠ [] := by
        rintro rfl
        have hjoin := joinSegments_segments text
        rw [hs] at hjoin
        exact h hjoin.symm
      rw [firstComponent?_of_ne_nil hfirst false ([] : List (List Char)).isEmpty]
    | cons _ _ => rfl

/-- What a joined path means. -/
theorem components_join {p q : Path} (hq : q.isAbsolute = false) :
    (p.join q).components =
      if p.components = [] then q.components
      else p.components ++ q.components.filter (· ≠ here) := by
  have hmore := segments_ne_nil q.chars
  have hchars : p.components = [] ↔ p.chars = [] :=
    components_eq_nil_iff.trans String.toList_eq_nil_iff.symm
  rw [← filterMap_innerComponent?_segments hq]
  by_cases hp : p.chars = []
  · rw [if_pos (hchars.2 hp), components, chars_join_of_not_absolute hq, hp]
    rfl
  · rw [if_neg (mt hchars.1 hp), components, components, chars_join_of_not_absolute hq]
    split
    · rename_i hlast
      obtain ⟨front, hcat⟩ := exists_eq_append_slash hp hlast
      rw [hcat, List.append_assoc, List.singleton_append, segments_append_slash,
        segments_append_slash]
      cases front with
      | nil => simp [segments, componentsOf, hmore, firstComponent?, innerComponent?, isIdle]
      | cons c front =>
        rw [componentsOf_segments_append (by simp) hmore,
          componentsOf_segments_append (by simp) (segments_ne_nil _)]
        simp [segments, innerComponent?, isIdle]
    · rw [segments_append_slash, componentsOf_segments_append hp hmore]

/-! ### Paths of given components -/

/-- The root and `.` stand only at the beginning. -/
theorem not_mem_tail_components (p : Path) :
    root ∉ p.components.tail ∧ here ∉ p.components.tail := by
  have htail : ∀ c ∈ p.components.tail, ∃ s, innerComponent? s = some c := by
    intro c hc
    cases hs : segments p.chars with
    | nil => exact absurd hs (segments_ne_nil _)
    | cons first rest =>
      have hmem : c ∈ rest.filterMap innerComponent? := by
        rw [components, hs, componentsOf] at hc
        cases hf : firstComponent? first rest.isEmpty with
        | none =>
          rw [hf] at hc
          exact List.mem_of_mem_tail hc
        | some d =>
          rw [hf] at hc
          exact hc
      obtain ⟨s, -, hsc⟩ := List.mem_filterMap.1 hmem
      exact ⟨s, hsc⟩
  constructor
  · intro hmem
    obtain ⟨s, hs⟩ := htail _ hmem
    exact (innerComponent?_ne s).1 hs
  · intro hmem
    obtain ⟨s, hs⟩ := htail _ hmem
    exact (innerComponent?_ne s).2 hs

/-! ### Names of a path -/

theorem innerComponent?_eq_name_iff {segment : List Char} {s : String} :
    innerComponent? segment = some (name s) ↔
      isIdle segment = false ∧ segment ≠ ['.', '.'] ∧ segment = s.toList := by
  rw [innerComponent?]
  split
  · simp [*]
  · split
    · simp [*]
    · rename_i hidle hup
      simp only [hidle, hup, Option.some.injEq, Component.name.injEq, ne_eq, not_false_eq_true,
        true_and]
      constructor
      · rintro rfl
        exact String.toList_ofList.symm
      · rintro rfl
        exact String.ofList_toList

theorem innerComponent?_of_firstComponent? {segment : List Char} {alone : Bool} {s : String}
    (h : firstComponent? segment alone = some (name s)) : innerComponent? segment = some (name s) := by
  rw [firstComponent?] at h
  split at h
  · split at h <;> cases h
  · split at h
    · cases h
    · exact h

/-- The names of a path are pieces of it. -/
theorem exists_mem_segments_of_mem_components {p : Path} {s : String} (h : name s ∈ p.components) :
    ∃ segment ∈ segments p.chars, innerComponent? segment = some (name s) := by
  cases hs : segments p.chars with
  | nil => exact absurd hs (segments_ne_nil _)
  | cons first rest =>
    rcases (mem_components_iff_of_segments hs).1 h with hf | ⟨segment, hsegment, hc⟩
    · exact ⟨first, List.mem_cons_self, innerComponent?_of_firstComponent? hf⟩
    · exact ⟨segment, List.mem_cons_of_mem first hsegment, hc⟩

theorem mem_components_of_innerComponent? {p : Path} {segment : List Char}
    (hsegment : segment ∈ segments p.chars) {c : Component} (h : innerComponent? segment = some c) :
    c ∈ p.components := by
  cases hs : segments p.chars with
  | nil => exact absurd hs (segments_ne_nil _)
  | cons first rest =>
    rw [mem_components_iff_of_segments hs]
    rw [hs] at hsegment
    rcases List.mem_cons.1 hsegment with rfl | hsegment
    · left
      have hidle : isIdle segment = false := by
        cases hidle : isIdle segment with
        | false => rfl
        | true => rw [innerComponent?_of_isIdle hidle] at h; cases h
      simp only [isIdle, Bool.or_eq_false_iff, beq_eq_false_iff_ne] at hidle
      rw [firstComponent?, hidle.1, if_neg (by simp), if_neg hidle.2, h]
    · exact .inr ⟨segment, hsegment, h⟩

/-- A name among the components of a path is one. -/
theorem isName_of_innerComponent? {segment : List Char} (hslash : '/' ∉ segment) {s : String}
    (h : innerComponent? segment = some (name s)) : IsName s := by
  obtain ⟨hidle, hup, rfl⟩ := innerComponent?_eq_name_iff.1 h
  simp only [isIdle, Bool.or_eq_false_iff, List.isEmpty_eq_false_iff, beq_eq_false_iff_ne] at hidle
  refine ⟨?_, ?_, ?_, hslash⟩
  · rintro rfl
    exact hidle.1 rfl
  · rintro rfl
    exact hidle.2 rfl
  · rintro rfl
    exact hup rfl

theorem isName_of_mem_components {p : Path} {s : String} (h : name s ∈ p.components) :
    IsName s := by
  obtain ⟨segment, hsegment, hs⟩ := exists_mem_segments_of_mem_components h
  exact isName_of_innerComponent? (slash_not_mem_of_mem_segments hsegment) hs

/-! ### Components as texts -/

/-- The text of a component, read as a path, means the component. -/
theorem components_text {p : Path} {c : Component} (h : c ∈ p.components) :
    components ⟨c.text⟩ = [c] := by
  cases c with
  | root => rfl
  | here => rfl
  | up => rfl
  | name s =>
    have hname := isName_of_mem_components h
    have hone : components ⟨"/".intercalate [s]⟩ = [s].map name :=
      components_intercalate (by simp) (by simpa using hname)
    simpa [Component.text] using hone

theorem isAbsolute_text_of_ne_root {p : Path} {c : Component} (h : c ∈ p.components)
    (hc : c ≠ root) : isAbsolute ⟨c.text⟩ = false := by
  cases c with
  | root => exact absurd rfl hc
  | here => rfl
  | up => rfl
  | name s =>
    have hslash := (isName_of_mem_components h).slash_not_mem
    rw [isAbsolute, Bool.eq_false_iff]
    intro hhead
    exact hslash (List.mem_of_mem_head? (by simpa [chars, Component.text] using hhead))

section
variable {c : Component} (hname : ∀ s, c = name s → IsName s) (hroot : c ≠ root)
include hname hroot

theorem slash_not_mem_text : '/' ∉ c.text.toList := by
  cases c with
  | root => exact absurd rfl hroot
  | here | up => decide
  | name s => exact (hname s rfl).slash_not_mem

theorem firstComponent?_text (alone : Bool) : firstComponent? c.text.toList alone = some c := by
  cases c with
  | root => exact absurd rfl hroot
  | here | up => rfl
  | name s => exact (hname s rfl).firstComponent?_eq alone

theorem innerComponent?_text (hhere : c ≠ here) : innerComponent? c.text.toList = some c := by
  cases c with
  | root => exact absurd rfl hroot
  | here => exact absurd rfl hhere
  | up => rfl
  | name s => exact (hname s rfl).innerComponent?_eq

end

/-- Components that may follow each other, written with slashes between them, mean themselves,
unless they start at the root. -/
theorem components_intercalate_text {cs : List Component} (hnames : ∀ s, name s ∈ cs → IsName s)
    (hroot : root ∉ cs) (hhere : here ∉ cs.tail) :
    components ⟨"/".intercalate (cs.map Component.text)⟩ = cs := by
  have hname {c : Component} (hc : c ∈ cs) : ∀ s, c = name s → IsName s := fun s heq =>
    hnames s (heq ▸ hc)
  have hne {c : Component} (hc : c ∈ cs) : c ≠ root := fun heq => hroot (heq ▸ hc)
  have hslash : ∀ piece ∈ (cs.map Component.text).map String.toList, '/' ∉ piece := by
    intro piece hpiece
    obtain ⟨s, hs, rfl⟩ := List.mem_map.1 hpiece
    obtain ⟨c, hc, rfl⟩ := List.mem_map.1 hs
    exact slash_not_mem_text (hname hc) (hne hc)
  cases cs with
  | nil => rfl
  | cons c cs =>
    have hfirst := firstComponent?_text (hname List.mem_cons_self) (hne List.mem_cons_self)
    have hinner : ∀ d ∈ cs, innerComponent? d.text.toList = some d := by
      intro d hd
      have hd' := List.mem_cons_of_mem c hd
      exact innerComponent?_text (hname hd') (hne hd') fun heq => hhere (heq ▸ hd)
    have hrest : cs.filterMap (fun d => innerComponent? d.text.toList) = cs :=
      (List.filterMap_congr hinner).trans List.filterMap_some
    rw [components, chars, toList_intercalate, segments_joinSegments (by simp) hslash, List.map_cons,
      List.map_cons, componentsOf, hfirst, List.filterMap_map, List.filterMap_map]
    simp only [Function.comp_def, hrest, Option.toList_some, List.singleton_append]

/-- The plainest path with the first components of a path means just these. -/
theorem components_ofComponents {p : Path} {cs : List Component} (h : cs <+: p.components) :
    (ofComponents cs).components = cs := by
  -- a further component is joined behind the ones before it
  induction cs using List.reverseRecOn with
  | nil => rfl
  | append_singleton cs c ih =>
    have hcs : (ofComponents cs).components = cs := ih ((List.prefix_append _ _).trans h)
    have hmem : c ∈ p.components := h.subset (by simp)
    have hjoin : ofComponents (cs ++ [c]) = (ofComponents cs).join ⟨c.text⟩ := by
      simp [ofComponents]
    rw [hjoin]
    cases cs with
    | nil =>
      have hnil : (ofComponents []).join ⟨c.text⟩ = ⟨c.text⟩ := by
        by_cases habs : isAbsolute ⟨c.text⟩ = true <;>
          simp [ofComponents, join, habs, empty, chars]
      rw [hnil, components_text hmem, List.nil_append]
    | cons d cs =>
      have htail : c ∈ p.components.tail := by
        obtain ⟨more, hmore⟩ := h
        rw [← hmore]
        simp
      have hroot : c ≠ root := fun heq => (not_mem_tail_components p).1 (heq ▸ htail)
      have hhere : c ≠ here := fun heq => (not_mem_tail_components p).2 (heq ▸ htail)
      rw [components_join (isAbsolute_text_of_ne_root hmem hroot), hcs, components_text hmem]
      simp [hhere]

end Path

end Scaffold
