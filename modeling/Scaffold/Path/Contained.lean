import Scaffold.Path.Raw

/-!
# Contained paths

A contained path stays at or below the directory that it is read from: it is not absolute and has
no `..`. What is generated is addressed by contained paths alone.
-/

namespace Scaffold

/-- Why a path is not contained. -/
inductive Path.Escape where
  | absolute
  | climbs
  deriving DecidableEq, Repr

/-- What keeps a path from being contained: that it is absolute, or a component that is neither a
name nor `.`; a path that is absolute is not looked at further. -/
def Path.escape? (p : Path) : Option Path.Escape :=
  if p.isAbsolute then some .absolute
  else if p.components.any fun | .name _ | .here => false | _ => true then some .climbs
  else none

/-- A path that is not absolute and has no `..`. -/
structure ContainedPath where
  path : Path
  contained : path.escape? = none
  deriving DecidableEq

namespace ContainedPath

/-- The path as a contained path, if it is one. -/
def ofPath? (p : Path) : Except Path.Escape ContainedPath :=
  match h : p.escape? with
  | none => .ok ⟨p, h⟩
  | some e => .error e

end ContainedPath

namespace Path

open Component (root up)

theorem innerComponent?_ne_root (segment : List Char) : innerComponent? segment ≠ some root := by
  simp only [innerComponent?]
  split
  · simp
  · split <;> simp

theorem innerComponent?_eq_up_iff {segment : List Char} :
    innerComponent? segment = some up ↔ segment = ['.', '.'] := by
  constructor
  · intro h
    simp only [innerComponent?] at h
    split at h
    · cases h
    · split at h
      · assumption
      · cases h
  · rintro rfl
    rfl

theorem firstComponent?_eq_up_iff {segment : List Char} {alone : Bool} :
    firstComponent? segment alone = some up ↔ segment = ['.', '.'] := by
  rw [← innerComponent?_eq_up_iff, firstComponent?]
  split
  · rename_i hempty
    rw [List.isEmpty_iff.1 hempty]
    cases alone <;> simp [innerComponent?, isIdle]
  · split
    · rename_i hhere
      rw [hhere]
      simp [innerComponent?, isIdle]
    · rfl

theorem firstComponent?_eq_root_iff {segment : List Char} {alone : Bool} :
    firstComponent? segment alone = some root ↔ segment = [] ∧ alone = false := by
  rw [firstComponent?]
  split
  · rename_i hempty
    cases alone <;> simp [List.isEmpty_iff.1 hempty]
  · rename_i hne
    have hne : segment ≠ [] := by simpa using hne
    split <;> simp [hne, innerComponent?_ne_root]

theorem mem_components_iff_of_segments {p : Path} {first : List Char} {rest : List (List Char)}
    (hs : segments p.chars = first :: rest) {c : Component} :
    c ∈ p.components ↔ firstComponent? first rest.isEmpty = some c ∨
      ∃ s ∈ rest, innerComponent? s = some c := by
  rw [components, hs, componentsOf, List.mem_append, Option.mem_toList, List.mem_filterMap]

theorem up_mem_components_iff {p : Path} : up ∈ p.components ↔ ['.', '.'] ∈ segments p.chars := by
  cases hs : segments p.chars with
  | nil => exact absurd hs (segments_ne_nil _)
  | cons first rest =>
    simp only [mem_components_iff_of_segments hs, firstComponent?_eq_up_iff,
      innerComponent?_eq_up_iff, List.mem_cons, exists_eq_right]
    rw [eq_comm]

theorem root_mem_components_iff {p : Path} : root ∈ p.components ↔ p.isAbsolute = true := by
  cases hs : segments p.chars with
  | nil => exact absurd hs (segments_ne_nil _)
  | cons first rest =>
    have hjoin := joinSegments_segments p.chars
    rw [hs] at hjoin
    have hslash : '/' ∉ first := slash_not_mem_of_mem_segments (hs ▸ List.mem_cons_self)
    have hinner : ¬ ∃ s ∈ rest, innerComponent? s = some root := fun ⟨s, _, h⟩ =>
      innerComponent?_ne_root s h
    rw [mem_components_iff_of_segments hs, firstComponent?_eq_root_iff, or_iff_left hinner,
      isAbsolute, ← hjoin]
    cases rest with
    | nil =>
      have hhead : first.head? ≠ some '/' := fun h => hslash (List.mem_of_mem_head? h)
      simp [joinSegments, hhead]
    | cons next rest =>
      rw [joinSegments_cons (by simp)]
      cases first with
      | nil => simp
      | cons c first =>
        have hc : c ≠ '/' := fun h => hslash (by simp [h])
        simp [hc]

/-- What keeps a path from being contained can be read off its segments. -/
theorem escape?_eq (p : Path) : p.escape? =
    if p.isAbsolute then some .absolute
    else if ['.', '.'] ∈ segments p.chars then some .climbs else none := by
  cases habs : p.isAbsolute with
  | true => simp [escape?, habs]
  | false =>
    have hroot : root ∉ p.components := fun h => by
      rw [root_mem_components_iff, habs] at h
      cases h
    have hany : (p.components.any fun | .name _ | .here => false | _ => true) = true ↔
        ['.', '.'] ∈ segments p.chars := by
      rw [← up_mem_components_iff, List.any_eq_true]
      constructor
      · rintro ⟨c, hc, h⟩
        cases c with
        | root => exact absurd hc hroot
        | up => exact hc
        | here | name => cases h
      · exact fun h => ⟨up, h, rfl⟩
    simp only [escape?, habs, Bool.false_eq_true, if_false, hany]

/-- A path is contained exactly if its text starts with no slash and has no segment `..`. -/
theorem escape?_eq_none_iff {p : Path} :
    p.escape? = none ↔ p.chars.head? ≠ some '/' ∧ ['.', '.'] ∉ segments p.chars := by
  by_cases habs : p.chars.head? = some '/' <;>
    by_cases hup : ['.', '.'] ∈ segments p.chars <;> simp [escape?_eq, isAbsolute, habs, hup]

/-- A path is contained exactly if neither the root nor `..` is among its components. -/
theorem escape?_eq_none_iff_not_mem {p : Path} :
    p.escape? = none ↔ root ∉ p.components ∧ up ∉ p.components := by
  rw [escape?_eq_none_iff, root_mem_components_iff, up_mem_components_iff, isAbsolute, beq_iff_eq]

theorem chars_join_of_not_absolute {p q : Path} (h : q.isAbsolute = false) :
    (p.join q).chars =
      if p.chars.getLast?.all (· = '/') then p.chars ++ q.chars else p.chars ++ '/' :: q.chars := by
  by_cases hlast : p.text.toList.getLast?.all (· = '/') = true <;>
    simp [join, h, chars, hlast, String.toList_append]

theorem exists_eq_append_slash {text : List Char} (hne : text ≠ [])
    (h : text.getLast?.all (· = '/') = true) : ∃ front, text = front ++ ['/'] := by
  obtain ⟨front, last, rfl⟩ := (List.eq_nil_or_concat text).resolve_left hne
  simp only [List.concat_eq_append, List.getLast?_append, List.getLast?_singleton,
    Option.some_or, Option.all_some, decide_eq_true_eq] at h
  exact ⟨front, by rw [List.concat_eq_append, h]⟩

/-- A contained path appended to a contained path is contained. -/
theorem escape?_join {p q : Path} (hp : p.escape? = none) (hq : q.escape? = none) :
    (p.join q).escape? = none := by
  obtain ⟨hpa, hpu⟩ := escape?_eq_none_iff.1 hp
  obtain ⟨hqa, hqu⟩ := escape?_eq_none_iff.1 hq
  have hrel : q.isAbsolute = false := by simpa [isAbsolute] using hqa
  rw [escape?_eq_none_iff, chars_join_of_not_absolute hrel]
  split
  · rename_i hlast
    by_cases hnil : p.chars = []
    · simpa [hnil] using ⟨hqa, hqu⟩
    · obtain ⟨front, hcat⟩ := exists_eq_append_slash hnil hlast
      rw [hcat] at hpu hpa ⊢
      rw [segments_append_slash] at hpu
      rw [List.append_assoc, List.singleton_append, segments_append_slash]
      simp only [List.mem_append, not_or] at hpu ⊢
      refine ⟨?_, hpu.1, hqu⟩
      cases front <;> simp_all
  · rw [segments_append_slash]
    refine ⟨?_, by simpa [List.mem_append] using ⟨hpu, hqu⟩⟩
    cases hc : p.chars with
    | nil => simp_all
    | cons c cs => simpa [hc] using hpa

/-- The segments of a parent, where there is one: no segment at all, or segments of the path that
begin with its first. -/
theorem parentSegments?_eq {first : List Char} {rest parent : List (List Char)}
    (h : parentSegments? (first :: rest) = some parent) :
    parent = [[]] ∨ parent = [[], []] ∧ first = [] ∧ rest ≠ [] ∨
      ∃ more, parent = first :: more ∧ (∀ s ∈ more, s ∈ rest) ∧ (first = [] → rest ≠ []) := by
  simp only [parentSegments?] at h
  split at h
  · split at h <;> simp_all
  · rename_i last before hb
    have hrest : rest ≠ [] := by rintro rfl; simp at hb
    have hmem : ∀ s ∈ before, s ∈ rest := fun s hs =>
      List.mem_reverse.1 ((List.dropWhile_sublist isIdle).subset (hb ▸ List.mem_cons_of_mem _ hs))
    split at h
    · split at h <;> rename_i hempty <;> simp only [Option.some.injEq] at h <;> subst h
      · exact .inr (.inl ⟨rfl, List.isEmpty_iff.1 hempty, hrest⟩)
      · exact .inr (.inr ⟨[], rfl, by simp, fun _ => hrest⟩)
    · simp only [Option.some.injEq] at h
      subst h
      exact .inr (.inr ⟨_, rfl, fun s hs =>
        hmem s ((List.dropWhile_sublist isIdle).subset (List.mem_reverse.1 hs)), fun _ => hrest⟩)

/-- The first of several segments of a contained path is not empty. -/
theorem first_ne_nil_of_escape? {p : Path} {first : List Char} {rest : List (List Char)}
    (h : p.escape? = none) (hs : segments p.chars = first :: rest) (hrest : rest ≠ []) :
    first ≠ [] := by
  rintro rfl
  apply (escape?_eq_none_iff.1 h).1
  have := joinSegments_segments p.chars
  rw [hs, joinSegments_cons hrest] at this
  rw [← this]; rfl

/-- The parent of a contained path is contained. -/
theorem escape?_parent {p : Path} (h : p.escape? = none) : p.parent.escape? = none := by
  obtain ⟨-, hup⟩ := escape?_eq_none_iff.1 h
  cases hs : segments p.chars with
  | nil => exact absurd hs (segments_ne_nil _)
  | cons first rest =>
    have hslash : ∀ s ∈ first :: rest, '/' ∉ s := fun s hm =>
      slash_not_mem_of_mem_segments (hs ▸ hm)
    cases hp : parentSegments? (first :: rest) with
    | none =>
      have hparent : p.parent = empty := by simp [parent, parent?, hs, hp]
      rw [hparent]; rfl
    | some pieces =>
      have hchars : p.parent.chars = joinSegments pieces := by simp [parent, parent?, hs, hp]
      rw [escape?_eq_none_iff, hchars]
      rcases parentSegments?_eq hp with rfl | ⟨-, hfirst, hrest⟩ | ⟨more, rfl, hmore, hrest⟩
      · simp [joinSegments, segments]
      · exact absurd hfirst (first_ne_nil_of_escape? h hs hrest)
      · have hfirst : first ≠ [] := fun hnil =>
          first_ne_nil_of_escape? h hs (hrest hnil) hnil
        have hslash' : ∀ s ∈ first :: more, '/' ∉ s := by
          intro s hm
          rcases List.mem_cons.1 hm with rfl | hm
          · exact hslash _ (by simp)
          · exact hslash s (by simp [hmore s hm])
        rw [segments_joinSegments (by simp) hslash']
        refine ⟨?_, fun hm => hup ?_⟩
        · have hhead : first.head? ≠ some '/' := fun hh =>
            hslash first (by simp) (List.mem_of_mem_head? hh)
          cases more with
          | nil => simpa [joinSegments] using hhead
          | cons next more =>
            rw [joinSegments_cons (by simp)]
            cases first with
            | nil => exact absurd rfl hfirst
            | cons c cs => simpa using hhead
        · rw [hs]
          rcases List.mem_cons.1 hm with hm | hm
          · simp [hm]
          · exact List.mem_cons_of_mem _ (hmore _ hm)

end Path

namespace ContainedPath

/-- The text of a contained path. -/
def text (p : ContainedPath) : String := p.path.text

/-- A further contained path behind this one; the other path decides whether there is one. -/
def join (p : ContainedPath) (q : Path) : Except Path.Escape ContainedPath := do
  let q ← ofPath? q
  return ⟨p.path.join q.path, Path.escape?_join p.contained q.contained⟩

/-- The directory of a contained path; empty at the top. -/
def parent (p : ContainedPath) : ContainedPath :=
  ⟨p.path.parent, Path.escape?_parent p.contained⟩

/-- The path as it is shown: one text for every spelling of a place. -/
def display (p : ContainedPath) : String := (RawPath.ofText p.text).display

/-- The directories that a contained path lies in, the nearest first, without the top. -/
def directories (p : ContainedPath) : List ContainedPath :=
  upward p.path.chars.length p.parent
where
  /-- At most `fuel` directories from `p` upward. A parent has fewer characters, so that the length
  of the path is fuel enough. -/
  upward : (fuel : Nat) → ContainedPath → List ContainedPath
    | 0, _ => []
    | fuel + 1, p => if p.text.isEmpty then [] else p :: upward fuel p.parent

end ContainedPath

/-- A contained path of the system. -/
structure ContainedRawPath where
  path : RawPath
  contained : path.spelled.escape? = none
  deriving DecidableEq

namespace ContainedRawPath

/-- The path as a contained path, if it is one. -/
def ofPath? (p : RawPath) : Except Path.Escape ContainedRawPath :=
  match h : p.spelled.escape? with
  | none => .ok ⟨p, h⟩
  | some e => .error e

/-- The contained path that spells a path. -/
def spelled (p : ContainedRawPath) : ContainedPath := ⟨p.path.spelled, p.contained⟩

/-- The path as it is shown. -/
def display (p : ContainedRawPath) : String := p.path.display

end ContainedRawPath

end Scaffold
