import Scaffold.Path.Contained

/-!
# Parents and directories by components

What a path means is its list of components, and that is all that its parent and its directories
depend on: the parent means the components but the last (`components_parent`), the directories of a
contained path are the proper prefixes that have a component (`mem_components_directories`). The
order of paths puts a directory before what lies in it (`key_lt_of_prefix`).
-/

namespace Scaffold

namespace Path

/-! ### Keys -/

theorem Component.rank_injective : Function.Injective Component.rank := by
  intro a b h
  cases a <;> cases b <;> simp only [Component.rank, List.cons.injEq, reduceCtorEq] at h ⊢
  case name.name a b =>
    have hchars : a.toList = b.toList :=
      List.map_inj_right (fun _ _ => Char.toNat_inj.1) |>.1 h.2
    rw [String.toList_inj.1 hchars]
  all_goals simp at h

/-- Paths have one key exactly if they have the same components. -/
theorem key_eq_iff {p q : Path} : p.key = q.key ↔ p.components = q.components :=
  List.map_inj_right fun _ _ h => Component.rank_injective h

theorem same_iff {p q : Path} : p.same q = true ↔ p.components = q.components := by
  rw [same, beq_iff_eq, key_eq_iff]

/-- A path stands before the paths below it. -/
theorem key_lt_of_prefix {p q : Path} (h : p.components <+: q.components)
    (hne : p.components ≠ q.components) : p.key < q.key := by
  obtain ⟨rest, hrest⟩ := h
  cases rest with
  | nil => exact absurd (by simpa using hrest) hne
  | cons c rest =>
    have hlt : p.key ++ [] < p.key ++ (c :: rest).map Component.rank :=
      List.append_left_lt (List.nil_lt_cons _ _)
    rwa [List.append_nil, key, ← List.map_append, hrest] at hlt

/-- A proper prefix is a prefix of what comes before the last. -/
theorem prefix_dropLast_of_ne {α : Type} {l m : List α} (h : l <+: m) (hne : l ≠ m) :
    l <+: m.dropLast := by
  have hm : m ≠ [] := by
    rintro rfl
    exact hne (List.prefix_nil.1 h)
  have hlast := List.dropLast_concat_getLast hm
  rw [← hlast] at h
  exact (List.prefix_concat_iff.1 h).resolve_left fun heq => hne (heq.trans hlast)

/-! ### Components of segments -/

theorem length_segments_le (text : List Char) : (segments text).length ≤ text.length + 1 := by
  induction text with
  | nil => simp [segments]
  | cons c text ih =>
    simp only [segments]
    split
    · simpa using ih
    · split
      · simp
      · rename_i first rest heq
        simp only [heq, List.length_cons] at ih ⊢
        omega

theorem length_componentsOf_le (pieces : List (List Char)) :
    (componentsOf pieces).length ≤ pieces.length := by
  cases pieces with
  | nil => simp [componentsOf]
  | cons first rest =>
    have hfirst : (firstComponent? first rest.isEmpty).toList.length ≤ 1 := by
      cases firstComponent? first rest.isEmpty <;> simp
    have hrest := List.length_filterMap_le innerComponent? rest
    simp only [componentsOf, List.length_append, List.length_cons]
    omega

theorem length_components_le (p : Path) : p.components.length ≤ p.chars.length + 1 :=
  Nat.le_trans (length_componentsOf_le _) (length_segments_le _)

theorem innerComponent?_of_isIdle {segment : List Char} (h : isIdle segment = true) :
    innerComponent? segment = none := by
  simp [innerComponent?, h]

theorem exists_innerComponent?_of_not_isIdle {segment : List Char} (h : isIdle segment = false) :
    ∃ c, innerComponent? segment = some c := by
  simp only [innerComponent?, h, Bool.false_eq_true, if_false]
  split <;> exact ⟨_, rfl⟩

/-- Idle segments at the end mean nothing. -/
theorem filterMap_reverse_dropWhile (l : List (List Char)) :
    (l.dropWhile isIdle).reverse.filterMap innerComponent? =
      l.reverse.filterMap innerComponent? := by
  induction l with
  | nil => rfl
  | cons s l ih =>
    by_cases h : isIdle s = true
    · rw [List.dropWhile_cons_of_pos h, ih, List.reverse_cons, List.filterMap_append]
      simp [innerComponent?_of_isIdle h]
    · rw [List.dropWhile_cons_of_neg h]

theorem firstComponent?_of_ne_nil {segment : List Char} (h : segment ≠ []) (alone other : Bool) :
    firstComponent? segment alone = firstComponent? segment other := by
  simp [firstComponent?, h]

theorem isSome_firstComponent? {segment : List Char} (h : segment ≠ []) (alone : Bool) :
    (firstComponent? segment alone).isSome := by
  simp only [firstComponent?, innerComponent?, isIdle]
  by_cases hhere : segment = ['.']
  · simp [hhere]
  · by_cases hup : segment = ['.', '.'] <;> simp [h, hhere, hup]

/-- Without its last component, a list of segments means the components but the last. -/
theorem componentsOf_parentSegments? {first : List Char} {rest pieces : List (List Char)}
    (h : parentSegments? (first :: rest) = some pieces) :
    componentsOf pieces = (componentsOf (first :: rest)).dropLast := by
  have hidle := filterMap_reverse_dropWhile rest.reverse
  rw [List.reverse_reverse] at hidle
  simp only [parentSegments?] at h
  cases hr : rest.reverse.dropWhile isIdle with
  | nil =>
    rw [hr] at h hidle
    have hpieces : pieces = [[]] := by
      simp only [Option.ite_none_left_eq_some, Option.some.injEq] at h
      exact h.2.symm
    have hnone : rest.filterMap innerComponent? = [] := hidle.symm
    have hcomponents : componentsOf (first :: rest) =
        (firstComponent? first rest.isEmpty).toList := by
      rw [componentsOf, hnone, List.append_nil]
    rw [hpieces, hcomponents]
    cases firstComponent? first rest.isEmpty <;> rfl
  | cons last before =>
    have hrest : rest.isEmpty = false := by
      cases rest with
      | nil => simp at hr
      | cons _ _ => rfl
    have hlast : isIdle last = false := by
      have := List.head?_dropWhile_not isIdle rest.reverse
      simpa only [hr, List.head?_cons] using this
    obtain ⟨c, hc⟩ := exists_innerComponent?_of_not_isIdle hlast
    have hbefore := filterMap_reverse_dropWhile before
    have hcomponents : (componentsOf (first :: rest)).dropLast =
        (firstComponent? first false).toList ++ before.reverse.filterMap innerComponent? := by
      rw [componentsOf, ← hidle, hr, List.reverse_cons, List.filterMap_append, hrest]
      have hone : [last].filterMap innerComponent? = [c] := by simp [hc]
      rw [hone, ← List.append_assoc, List.dropLast_concat]
    rw [hcomponents, ← hbefore]
    simp only [hr] at h
    cases hb : before.dropWhile isIdle with
    | nil =>
      simp only [hb, Option.some.injEq] at h
      subst h
      by_cases hfirst : first = []
      · subst hfirst
        rfl
      · simp [hfirst, componentsOf, firstComponent?_of_ne_nil hfirst true false]
    | cons s before' =>
      simp only [hb, Option.some.injEq] at h
      subst h
      have hmore : (s :: before').reverse.isEmpty = false := by simp
      rw [componentsOf, hmore]

/-- Without a last component that can be dropped, there is the root at most. -/
theorem dropLast_componentsOf_of_parentSegments?_eq_none {first : List Char}
    {rest : List (List Char)} (h : parentSegments? (first :: rest) = none) :
    (componentsOf (first :: rest)).dropLast = [] := by
  simp only [parentSegments?] at h
  cases hr : rest.reverse.dropWhile isIdle with
  | nil =>
    have hidle := filterMap_reverse_dropWhile rest.reverse
    rw [List.reverse_reverse, hr] at hidle
    have hnone : rest.filterMap innerComponent? = [] := hidle.symm
    rw [componentsOf, hnone, List.append_nil]
    cases firstComponent? first rest.isEmpty <;> rfl
  | cons last before =>
    simp only [hr] at h
    split at h <;> simp at h

/-- The parent of a path means its components but the last. -/
theorem components_parent (p : Path) : p.parent.components = p.components.dropLast := by
  cases hs : segments p.chars with
  | nil => exact absurd hs (segments_ne_nil _)
  | cons first rest =>
    cases hp : parentSegments? (first :: rest) with
    | none =>
      have hparent : p.parent = empty := by simp [parent, parent?, hs, hp]
      rw [hparent, components, components, hs,
        dropLast_componentsOf_of_parentSegments?_eq_none hp]
      rfl
    | some pieces =>
      have hparent : p.parent = ofChars (joinSegments pieces) := by
        simp [parent, parent?, hs, hp]
      have hslash : ∀ s ∈ first :: rest, '/' ∉ s := fun s hm =>
        slash_not_mem_of_mem_segments (hs ▸ hm)
      have hpieces : segments (joinSegments pieces) = pieces := by
        rcases parentSegments?_eq hp with rfl | ⟨rfl, -, -⟩ | ⟨more, rfl, hmore, -⟩
        · rfl
        · rfl
        · refine segments_joinSegments (by simp) fun s hm => ?_
          rcases List.mem_cons.1 hm with rfl | hm
          · exact hslash _ (by simp)
          · exact hslash s (by simp [hmore s hm])
      rw [hparent, components, components, chars_ofChars, hpieces, hs,
        componentsOf_parentSegments? hp]

/-- Only the empty text means no step at all. -/
theorem components_eq_nil_iff {p : Path} : p.components = [] ↔ p.text = "" := by
  rw [← String.toList_eq_nil_iff, ← chars]
  constructor
  · intro hnil
    cases hs : segments p.chars with
    | nil => exact absurd hs (segments_ne_nil _)
    | cons first rest =>
      rw [components, hs, componentsOf, List.append_eq_nil_iff] at hnil
      by_cases hfirst : first = []
      · by_cases hrest : rest = []
        · rw [← joinSegments_segments p.chars, hs, hfirst, hrest]
          rfl
        · simp [firstComponent?, hfirst, hrest] at hnil
      · have := isSome_firstComponent? hfirst rest.isEmpty
        rw [Option.toList_eq_nil_iff.1 hnil.1] at this
        simp at this
  · intro hnil
    rw [components, hnil]
    rfl

/-! ### Paths of names -/

/-- A text that is a name between slashes, and always the same one. -/
structure IsName (s : String) : Prop where
  ne_empty : s ≠ ""
  ne_here : s ≠ "."
  ne_up : s ≠ ".."
  slash_not_mem : '/' ∉ s.toList

instance : DecidablePred IsName := fun s =>
  decidable_of_iff (s ≠ "" ∧ s ≠ "." ∧ s ≠ ".." ∧ '/' ∉ s.toList)
    ⟨fun h => ⟨h.1, h.2.1, h.2.2.1, h.2.2.2⟩,
      fun h => ⟨h.ne_empty, h.ne_here, h.ne_up, h.slash_not_mem⟩⟩

theorem toList_intercalate (pieces : List String) :
    ("/".intercalate pieces).toList = joinSegments (pieces.map String.toList) := by
  induction pieces with
  | nil => simp [joinSegments]
  | cons s pieces ih =>
    cases pieces with
    | nil => simp [joinSegments]
    | cons r pieces =>
      have hrest : (r :: pieces).map String.toList ≠ [] := by simp
      have hcons : (s :: r :: pieces).map String.toList =
          s.toList :: (r :: pieces).map String.toList := rfl
      rw [String.intercalate_cons_cons, String.toList_append, ih, hcons, joinSegments_cons hrest]
      simp

theorem IsName.innerComponent?_eq {s : String} (h : IsName s) :
    innerComponent? s.toList = some (.name s) := by
  have hempty : s.toList ≠ [] := fun hs => h.ne_empty (String.toList_eq_nil_iff.1 hs)
  have hhere : s.toList ≠ ['.'] := fun hs => h.ne_here (String.toList_inj.1 hs)
  have hup : s.toList ≠ ['.', '.'] := fun hs => h.ne_up (String.toList_inj.1 hs)
  simp [innerComponent?, isIdle, hempty, hhere, hup]

theorem IsName.firstComponent?_eq {s : String} (h : IsName s) (alone : Bool) :
    firstComponent? s.toList alone = some (.name s) := by
  have hempty : s.toList ≠ [] := fun hs => h.ne_empty (String.toList_eq_nil_iff.1 hs)
  have hhere : s.toList ≠ ['.'] := fun hs => h.ne_here (String.toList_inj.1 hs)
  simp [firstComponent?, hempty, hhere, h.innerComponent?_eq]

theorem filterMap_innerComponent?_names {names : List String} (h : ∀ s ∈ names, IsName s) :
    (names.map String.toList).filterMap innerComponent? = names.map .name := by
  induction names with
  | nil => rfl
  | cons s names ih =>
    rw [List.map_cons, List.filterMap_cons, (h s (by simp)).innerComponent?_eq,
      ih fun t ht => h t (by simp [ht])]
    rfl

section
variable {pieces : List String} (hne : pieces ≠ []) (h : ∀ s ∈ pieces, IsName s)
include hne h

theorem segments_intercalate :
    segments ("/".intercalate pieces).toList = pieces.map String.toList := by
  rw [toList_intercalate, segments_joinSegments (by simpa using hne)]
  intro piece hp
  obtain ⟨s, hs, rfl⟩ := List.mem_map.1 hp
  exact (h s hs).slash_not_mem

/-- A path of names means these names. -/
theorem components_intercalate :
    components ⟨"/".intercalate pieces⟩ = pieces.map .name := by
  rw [components, chars, segments_intercalate hne h]
  cases pieces with
  | nil => exact absurd rfl hne
  | cons s pieces =>
    rw [List.map_cons, componentsOf, (h s (by simp)).firstComponent?_eq,
      filterMap_innerComponent?_names fun r hr => h r (by simp [hr])]
    rfl

theorem escape?_intercalate : escape? ⟨"/".intercalate pieces⟩ = none := by
  rw [escape?_eq_none_iff, chars, segments_intercalate hne h]
  constructor
  · intro hhead
    have hsegments := segments_intercalate hne h
    obtain ⟨rest, hrest⟩ := List.head?_eq_some_iff.1 hhead
    rw [hrest, segments, if_pos rfl] at hsegments
    cases pieces with
    | nil => exact absurd rfl hne
    | cons s pieces =>
      rw [List.map_cons, List.cons.injEq] at hsegments
      exact (h s (by simp)).ne_empty (String.toList_eq_nil_iff.1 hsegments.1.symm)
  · intro hup
    obtain ⟨s, hs, heq⟩ := List.mem_map.1 hup
    exact (h s hs).ne_up (String.toList_inj.1 heq)

end

end Path

namespace ContainedPath

/-- The parent of a contained path means its components but the last. -/
theorem components_parent (p : ContainedPath) :
    p.parent.path.components = p.path.components.dropLast :=
  p.path.components_parent

theorem isEmpty_text_iff (p : ContainedPath) :
    p.text.isEmpty = true ↔ p.path.components = [] := by
  rw [Path.components_eq_nil_iff, String.isEmpty_iff, text]

/-- The directories above a path, from the path itself upward, are its prefixes that have a
component. -/
theorem mem_components_upward {fuel : Nat} {p : ContainedPath}
    (hfuel : p.path.components.length ≤ fuel) (cs : List Path.Component) :
    cs ∈ (directories.upward fuel p).map (·.path.components) ↔
      cs ≠ [] ∧ cs <+: p.path.components := by
  -- every step upward takes a component away, and there are no more of them than fuel
  induction fuel generalizing p with
  | zero =>
    have hnil : p.path.components = [] := List.length_eq_zero_iff.1 (Nat.le_zero.1 hfuel)
    simp [directories.upward, hnil]
  | succ fuel ih =>
    by_cases hnil : p.path.components = []
    · simp [directories.upward, (isEmpty_text_iff p).2 hnil, hnil]
    · have hfalse : p.text.isEmpty = false := by
        rw [Bool.eq_false_iff]
        exact fun h => hnil ((isEmpty_text_iff p).1 h)
      have hparent := components_parent p
      have hlt : p.parent.path.components.length ≤ fuel := by
        rw [hparent, List.length_dropLast]
        omega
      simp only [directories.upward, hfalse, Bool.false_eq_true, if_false, List.map_cons,
        List.mem_cons, ih hlt, hparent]
      constructor
      · rintro (rfl | ⟨hne, hp⟩)
        · exact ⟨hnil, List.prefix_rfl⟩
        · exact ⟨hne, hp.trans <| List.dropLast_prefix _⟩
      · rintro ⟨hne, hp⟩
        by_cases heq : cs = p.path.components
        · exact .inl heq
        · exact .inr ⟨hne, Path.prefix_dropLast_of_ne hp heq⟩

/-- The directories of a path are its proper prefixes that have a component. -/
theorem mem_components_directories (p : ContainedPath) (cs : List Path.Component) :
    cs ∈ p.directories.map (·.path.components) ↔
      cs ≠ [] ∧ cs <+: p.path.components ∧ cs ≠ p.path.components := by
  have hparent := components_parent p
  have hfuel : p.parent.path.components.length ≤ p.path.chars.length := by
    have := Path.length_components_le p.path
    rw [hparent, List.length_dropLast]
    omega
  rw [directories, mem_components_upward hfuel, hparent]
  refine and_congr_right fun hne => ⟨fun hp => ?_, fun ⟨hp, hne'⟩ => ?_⟩
  · refine ⟨hp.trans <| List.dropLast_prefix _, fun heq => ?_⟩
    have := hp.length_le
    rw [heq, List.length_dropLast] at this
    have := List.length_pos_iff.2 (heq ▸ hne)
    omega
  · exact Path.prefix_dropLast_of_ne hp hne'

theorem map_path_upward {fuel fuel' : Nat} {p : ContainedPath}
    (hfuel : p.path.components.length ≤ fuel) (hfuel' : p.path.components.length ≤ fuel' + 1) :
    (directories.upward fuel p).map (·.path) =
      (p.path :: Path.ancestors.upward fuel' p.path).takeWhile fun q => !q.text.isEmpty := by
  -- the two walks may have more fuel left than the way is long, and not the same
  induction fuel generalizing p fuel' with
  | zero =>
    have hnil : p.path.components = [] := List.length_eq_zero_iff.1 (Nat.le_zero.1 hfuel)
    have hempty : p.path.text.isEmpty = true := (isEmpty_text_iff p).2 hnil
    simp [directories.upward, hempty]
  | succ fuel ih =>
    by_cases hempty : p.path.text.isEmpty = true
    · simp [directories.upward, text, hempty]
    · have hparent : p.parent.path.components.length = p.path.components.length - 1 := by
        rw [components_parent p, List.length_dropLast]
      have hfalse : p.text.isEmpty = false := by simpa [text] using hempty
      simp only [directories.upward, hfalse, Bool.false_eq_true, if_false, List.map_cons]
      rw [List.takeWhile_cons_of_pos (by simpa [text] using hempty), List.cons.injEq]
      refine ⟨rfl, ?_⟩
      cases fuel' with
      | zero =>
        have hnil : p.parent.path.components = [] := List.length_eq_zero_iff.1 (by omega)
        have hnone : directories.upward fuel p.parent = [] := by
          cases fuel <;> simp [directories.upward, (isEmpty_text_iff p.parent).2 hnil]
        rw [hnone]
        rfl
      | succ fuel' =>
        simp only [Path.ancestors.upward]
        cases hq : p.path.parent? with
        | none =>
          have hpath : p.parent.path = Path.empty := by simp [parent, Path.parent, hq]
          have hnone : directories.upward fuel p.parent = [] := by
            cases fuel <;> simp [directories.upward, text, hpath, Path.empty]
          rw [hnone]
          rfl
        | some q =>
          have hpath : p.parent.path = q := by simp [parent, Path.parent, hq]
          rw [ih (by omega) (by omega : p.parent.path.components.length ≤ fuel' + 1), hpath]

/-- The directories of a path are those that one meets on the way up from its parent. -/
theorem map_path_directories (p : ContainedPath) :
    p.directories.map (·.path) =
      p.path.parent.ancestors.takeWhile fun directory => !directory.text.isEmpty := by
  have hparent : p.parent.path.components.length = p.path.components.length - 1 := by
    rw [components_parent p, List.length_dropLast]
  have hfuel := Path.length_components_le p.path
  have hfuel' := Path.length_components_le p.parent.path
  exact map_path_upward (p := p.parent) (by omega) hfuel'

end ContainedPath

end Scaffold
