import Scaffold.Proofs.Path.Join

/-!
# Paths of names below a path

A contained path that does not start with a dot alone means its names
(`Path.components_eq_map_names`). The text of a path that is not empty, with names behind it, has
the pieces of the path and then the names, whether or not a slash stood at the end
(`Path.exists_segments_below`). Its parent has the names but the last (`Path.parent?_below`).
-/

namespace Scaffold.Path

/-- The names of a path. -/
def names (p : Path) : List String :=
  p.components.filterMap fun
    | .name text => some text
    | _ => none

section
variable {p : Path}

theorem mem_names {s : String} : s ∈ p.names ↔ .name s ∈ p.components := by
  rw [names, List.mem_filterMap]
  constructor
  · rintro ⟨c, hc, heq⟩
    cases c with
    | name text => exact Option.some.inj heq ▸ hc
    | root | here | up => cases heq
  · exact fun h => ⟨_, h, rfl⟩

theorem isName_of_mem_names {s : String} (h : s ∈ p.names) : IsName s :=
  isName_of_mem_components (mem_names.1 h)

theorem components_eq_map_names (h : p.escape? = none) (hhere : .here ∉ p.components) :
    p.components = p.names.map .name := by
  obtain ⟨hroot, hup⟩ := escape?_eq_none_iff_not_mem.1 h
  have hmap (cs : List Component) (hcs : ∀ c ∈ cs, c ∈ p.components) :
      cs = (cs.filterMap fun | .name text => some text | _ => none).map .name := by
    induction cs with
    | nil => rfl
    | cons c cs ih =>
      obtain ⟨hc, hrest⟩ := List.forall_mem_cons.1 hcs
      cases c with
      | root => exact absurd hc hroot
      | here => exact absurd hc hhere
      | up => exact absurd hc hup
      | name text => rw [List.filterMap_cons, List.map_cons, ← ih hrest]
  exact hmap _ fun _ hc => hc

end

/-- The path of names below a path. -/
def below (root : Path) (names : List String) : Path := root.join ⟨"/".intercalate names⟩

/-- A character other than a slash that none of several texts holds does not stand in the path
of them. -/
theorem not_mem_intercalate {c : Char} (hc : c ≠ '/') {names : List String}
    (h : ∀ s ∈ names, c ∉ s.toList) : c ∉ ("/".intercalate names).toList := by
  rw [toList_intercalate]
  induction names with
  | nil => simp [joinSegments]
  | cons s names ih =>
    obtain ⟨hs, hnames⟩ := List.forall_mem_cons.1 h
    cases names with
    | nil => exact hs
    | cons r names =>
      rw [List.map_cons, joinSegments_cons (by simp)]
      intro hmem
      rcases List.mem_append.1 hmem with hmem | hmem
      · exact hs hmem
      · rcases List.mem_cons.1 hmem with hmem | hmem
        · exact hc hmem
        · exact ih hnames hmem

section
variable {root : Path} {names : List String}

theorem isAbsolute_intercalate (hne : names ≠ []) (hnames : ∀ s ∈ names, IsName s) :
    isAbsolute ⟨"/".intercalate names⟩ = false := by
  have hhead := (escape?_eq_none_iff.1 (escape?_intercalate hne hnames)).1
  simpa [isAbsolute] using hhead

theorem chars_below (hne : names ≠ []) (hnames : ∀ s ∈ names, IsName s) :
    (root.below names).chars =
      if root.chars.getLast?.all (· = '/') then root.chars ++ ("/".intercalate names).toList
      else root.chars ++ '/' :: ("/".intercalate names).toList :=
  chars_join_of_not_absolute (isAbsolute_intercalate hne hnames)

/-- The pieces of a path with names behind it. -/
theorem exists_segments_below (hroot : root.chars ≠ []) :
    ∃ front, front ≠ [] ∧ (segments root.chars = front ∨ segments root.chars = front ++ [[]]) ∧
      ∀ names ≠ [], (∀ s ∈ names, IsName s) →
        segments (root.below names).chars = front ++ names.map String.toList := by
  by_cases hlast : root.chars.getLast?.all (· = '/') = true
  · obtain ⟨front, hfront⟩ := exists_eq_append_slash hroot hlast
    refine ⟨segments front, segments_ne_nil front, .inr ?_, fun names hne hnames => ?_⟩
    · rw [hfront, segments_append_slash]
      rfl
    · rw [chars_below hne hnames, if_pos hlast, hfront, List.append_assoc, List.singleton_append,
        segments_append_slash, segments_intercalate hne hnames]
  · refine ⟨segments root.chars, segments_ne_nil _, .inl rfl, fun names hne hnames => ?_⟩
    rw [chars_below hne hnames, if_neg hlast, segments_append_slash, segments_intercalate hne hnames]

theorem isAbsolute_below (hroot : root.chars ≠ []) (hne : names ≠ [])
    (hnames : ∀ s ∈ names, IsName s) : (root.below names).isAbsolute = root.isAbsolute := by
  rw [isAbsolute, isAbsolute, chars_below hne hnames]
  cases hc : root.chars with
  | nil => exact absurd hc hroot
  | cons c cs => split <;> rfl

theorem isIdle_toList_eq_false {s : String} (h : IsName s) : isIdle s.toList = false := by
  have hempty : s.toList ≠ [] := fun hs => h.ne_empty (String.toList_eq_nil_iff.1 hs)
  have hhere : s.toList ≠ ['.'] := fun hs => h.ne_here (String.toList_inj.1 hs)
  simp [isIdle, hempty, hhere]

theorem intercalate_append_singleton (hne : names ≠ []) (last : String) :
    "/".intercalate (names ++ [last]) = "/".intercalate names ++ "/" ++ last := by
  induction names with
  | nil => exact absurd rfl hne
  | cons s names ih =>
    cases names with
    | nil => simp [String.intercalate_cons_cons]
    | cons r names =>
      have hrest := ih (by simp)
      rw [List.cons_append] at hrest
      rw [List.cons_append, List.cons_append, String.intercalate_cons_cons, hrest,
        String.intercalate_cons_cons]
      simp only [String.append_assoc]

theorem text_below_append (hne : names ≠ []) {last : String}
    (hnames : ∀ s ∈ names ++ [last], IsName s) :
    (root.below (names ++ [last])).text = (root.below names).text ++ "/" ++ last := by
  have hinit : ∀ s ∈ names, IsName s := fun s hs => hnames s (by simp [hs])
  rw [below, below, join, join, isAbsolute_intercalate (by simp) hnames,
    isAbsolute_intercalate hne hinit, intercalate_append_singleton hne]
  split
  · contradiction
  · split <;> simp only [String.append_assoc]

/-- The parent of pieces that end in one that counts. -/
theorem parentSegments?_append {first last : List Char} {rest : List (List Char)}
    (hlast : isIdle last = false) :
    parentSegments? (first :: (rest ++ [last])) =
      match rest.reverse.dropWhile isIdle with
      | [] => some (if first.isEmpty then [[], []] else [first])
      | before => some (first :: before.reverse) := by
  have hdrop : (rest ++ [last]).reverse.dropWhile isIdle = last :: rest.reverse := by
    rw [List.reverse_append, List.reverse_singleton, List.singleton_append,
      List.dropWhile_cons_of_neg (by simp [hlast])]
  cases hrest : rest.reverse.dropWhile isIdle <;> simp only [parentSegments?, hdrop, hrest]

theorem isSome_parent?_below (hroot : root.chars ≠ []) {last : String}
    (hnames : ∀ s ∈ names ++ [last], IsName s) : (root.below (names ++ [last])).parent?.isSome := by
  obtain ⟨front, hfront, -, hsegments⟩ := exists_segments_below hroot
  obtain ⟨first, more, rfl⟩ := List.exists_cons_of_ne_nil hfront
  rw [parent?, hsegments _ (by simp) hnames, Option.isSome_map, List.map_append, List.map_singleton,
    List.cons_append, ← List.append_assoc,
    parentSegments?_append (isIdle_toList_eq_false (hnames last (by simp)))]
  split <;> rfl

/-- The parent of a path with several names behind it has one name less. -/
theorem parent?_below (hroot : root.chars ≠ []) (hne : names ≠ []) {last : String}
    (hnames : ∀ s ∈ names ++ [last], IsName s) :
    (root.below (names ++ [last])).parent? = some (root.below names) := by
  obtain ⟨front, hfront, -, hsegments⟩ := exists_segments_below hroot
  obtain ⟨first, more, rfl⟩ := List.exists_cons_of_ne_nil hfront
  have hinit : ∀ s ∈ names, IsName s := fun s hs => hnames s (by simp [hs])
  have hparent : parentSegments? (first :: (more ++ names.map String.toList ++ [last.toList])) =
      some (first :: more ++ names.map String.toList) := by
    rw [parentSegments?_append (isIdle_toList_eq_false (hnames last (by simp)))]
    -- what is left ends in a name, so that no idle piece is dropped from it
    obtain ⟨init, s, rfl⟩ := (List.eq_nil_or_concat names).resolve_left hne
    have hs := isIdle_toList_eq_false (hinit s (by simp))
    have hdrop : (more ++ (init ++ [s]).map String.toList).reverse.dropWhile isIdle =
        (more ++ (init ++ [s]).map String.toList).reverse := by
      simp [hs]
    rw [List.concat_eq_append, hdrop]
    simp
  have hchars : joinSegments (first :: more ++ names.map String.toList) =
      (root.below names).chars := by
    rw [← hsegments names hne hinit, joinSegments_segments]
  rw [parent?, hsegments _ (by simp) hnames, List.map_append, List.map_singleton, List.cons_append,
    ← List.append_assoc, hparent, Option.map_some, hchars, chars, ofChars, String.ofList_toList]

end

end Scaffold.Path
