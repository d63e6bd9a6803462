import Scaffold.Proofs.Path.Below
import Scaffold.Proofs.Path.Raw

/-!
# Names below a path of the system

A path of the system with names behind it has the pieces of the path and then the names
(`RawPath.exists_pieces_below`), as its spelling has.
-/

namespace Scaffold

open Scaffold.Path (IsName segments)

namespace FileName

@[simp] theorem ofChars_chars (s : FileName) : ofChars s.chars = s :=
  congrArg mk (RawPath.map_byte_map_character s.bytes)

theorem chars_injective : Function.Injective chars :=
  Function.LeftInverse.injective (g := ofChars) ofChars_chars

@[simp] theorem toList_spelled (s : FileName) : s.spelled.toList = s.chars := String.toList_ofList

theorem spelled_injective : Function.Injective spelled :=
  fun _ _ h => chars_injective (String.ofList_injective h)

theorem map_toList_map_spelled (names : List FileName) :
    (names.map spelled).map String.toList = names.map chars := by
  simp [Function.comp_def]

theorem zero_mem_chars_iff {s : FileName} : '\x00' ∈ s.chars ↔ 0 ∈ s.bytes :=
  RawPath.mem_map_character_iff (b := 0)

end FileName

namespace RawPath

/-- The names of a path. -/
def names (p : RawPath) : List FileName := p.spelled.names.map fun s => .ofChars s.toList

/-- The path of names below a path. -/
def below (root : RawPath) (names : List FileName) : RawPath :=
  .ofSpelled (root.spelled.below (names.map FileName.spelled))

section
variable {p : RawPath}

/-- What characters of a spelling spell is spelled by them. -/
theorem chars_ofChars {cs : List Char} (h : ∀ c ∈ cs, c ∈ p.spelled.chars) :
    (FileName.ofChars cs).chars = cs := by
  rw [chars_spelled] at h
  exact map_character_map_byte fun c hc => character_byte_of_mem (h c hc)

theorem chars_pieces : p.pieces.map FileName.chars = segments p.spelled.chars := by
  rw [pieces, List.map_map]
  refine (List.map_congr_left fun segment hsegment => ?_).trans (List.map_id _)
  exact chars_ofChars fun c hc => Path.mem_of_mem_segments hsegment hc

theorem slash_not_mem_of_mem_pieces {s : FileName} (h : s ∈ p.pieces) : '/' ∉ s.chars := by
  have hmem : s.chars ∈ segments p.spelled.chars := chars_pieces ▸ List.mem_map_of_mem h
  exact Path.slash_not_mem_of_mem_segments hmem

theorem map_spelled_names : p.names.map FileName.spelled = p.spelled.names := by
  rw [names, List.map_map]
  refine (List.map_congr_left fun s hs => ?_).trans (List.map_id _)
  obtain ⟨segment, hsegment, hinner⟩ :=
    Path.exists_mem_segments_of_mem_components (Path.mem_names.1 hs)
  obtain ⟨-, -, rfl⟩ := Path.innerComponent?_eq_name_iff.1 hinner
  have hchars : (FileName.ofChars s.toList).chars = s.toList :=
    chars_ofChars fun c hc => Path.mem_of_mem_segments hsegment hc
  rw [Function.comp_apply, FileName.spelled, hchars, String.ofList_toList, id]

theorem isName_of_mem_names {s : FileName} (h : s ∈ p.names) : IsName s.spelled := by
  have hmem : s.spelled ∈ p.spelled.names := map_spelled_names ▸ List.mem_map_of_mem h
  exact Path.isName_of_mem_names hmem

/-- A path of the system that is contained and does not start with a dot alone means its names. -/
theorem components_eq_map_names (h : p.spelled.escape? = none) (hhere : .here ∉ p.components) :
    p.components = p.names.map fun s => .name s.spelled := by
  rw [components, Path.components_eq_map_names h hhere, ← map_spelled_names, List.map_map]
  rfl

/-- Of such a path its names are shown. -/
theorem display_eq_intercalate (h : p.spelled.escape? = none) (hhere : .here ∉ p.components) :
    p.display = "/".intercalate (p.names.map FileName.shown) := by
  have htext (s : FileName) : Text.shown (s.spelled.toList.map byte) = s.shown := by
    rw [FileName.toList_spelled, FileName.chars, map_byte_map_character, FileName.shown]
  rw [display, components_eq_map_names h hhere, List.map_map]
  exact congrArg _ (List.map_congr_left fun s _ => htext s)

end

theorem bytes_ofNames_cons_cons (s r : FileName) (names : List FileName) :
    (ofNames (s :: r :: names)).bytes = s.bytes ++ byte '/' :: (ofNames (r :: names)).bytes := by
  simp [ofNames, List.intercalate_cons_cons]

theorem mem_bytes_ofNames {b : UInt8} {names : List FileName} (h : b ∈ (ofNames names).bytes) :
    b = byte '/' ∨ ∃ s ∈ names, b ∈ s.bytes := by
  induction names with
  | nil => cases h
  | cons s names ih =>
    cases names with
    | nil => exact .inr ⟨s, by simp, by simpa [ofNames] using h⟩
    | cons r names =>
      rw [bytes_ofNames_cons_cons] at h
      rcases List.mem_append.1 h with h | h
      · exact .inr ⟨s, by simp, h⟩
      · rcases List.mem_cons.1 h with h | h
        · exact .inl h
        · exact (ih h).imp_right fun ⟨t, ht, hb⟩ => ⟨t, List.mem_cons_of_mem s ht, hb⟩

theorem shown_append_slash (bytes rest : List UInt8) :
    Text.shown (bytes ++ byte '/' :: rest) = Text.shown bytes ++ "/" ++ Text.shown rest := by
  have hslash : "/".toList = [Char.ofNat (byte '/').toNat] := rfl
  rw [← String.toList_inj, Text.shown, Text.decodeFrom_append_cons (by decide) (by simp)]
  simp [Text.shown, hslash]

/-- Names with slashes between them are shown apart. -/
theorem shown_ofNames (names : List FileName) :
    (ofNames names).shown = "/".intercalate (names.map FileName.shown) := by
  induction names with
  | nil => rfl
  | cons s names ih =>
    cases names with
    | nil => simp [ofNames, shown, FileName.shown]
    | cons r names =>
      rw [shown, bytes_ofNames_cons_cons, shown_append_slash, List.map_cons, List.map_cons,
        String.intercalate_cons_cons, ← List.map_cons, ← ih]
      rfl

/-! ### Names below a path -/

theorem bytes_ofSpelled (p : Path) : (ofSpelled p).bytes = p.chars.map byte := rfl

@[simp] theorem ofSpelled_spelled (p : RawPath) : ofSpelled p.spelled = p := by
  rw [ofSpelled, chars_spelled, map_byte_map_character]

theorem spelled_ofSpelled {p : Path} (h : ∀ c ∈ p.chars, character (byte c) = c) :
    (ofSpelled p).spelled = p := by
  rw [spelled, bytes_ofSpelled, map_character_map_byte h, Path.chars, Path.ofChars,
    String.ofList_toList]

section
variable {root : RawPath} {names : List FileName}

theorem forall_isName_map_spelled (h : ∀ s ∈ names, IsName s.spelled) :
    ∀ s ∈ names.map FileName.spelled, IsName s := List.forall_mem_map.2 h

/-- A character other than a slash that stands in none of several names does not stand in the path
of them. -/
theorem not_mem_intercalate {c : Char} (hc : c ≠ '/') (h : ∀ s ∈ names, c ∉ s.chars) :
    c ∉ ("/".intercalate (names.map FileName.spelled)).toList := by
  refine Path.not_mem_intercalate hc (List.forall_mem_map.2 fun s hs => ?_)
  rw [FileName.toList_spelled]
  exact h s hs

section
variable (hne : names ≠ []) (hnames : ∀ s ∈ names, IsName s.spelled)
include hne hnames

/-- A character other than a slash that stands neither in a path nor in names does not stand in the
path of the names below it. -/
theorem not_mem_chars_below {c : Char} (hc : c ≠ '/') (hroot : c ∉ root.spelled.chars)
    (h : ∀ s ∈ names, c ∉ s.chars) : c ∉ (root.spelled.below (names.map FileName.spelled)).chars := by
  have hrest := not_mem_intercalate hc h
  rw [Path.chars_below (by simpa using hne) (forall_isName_map_spelled hnames)]
  split
  · exact fun hmem => (List.mem_append.1 hmem).elim hroot hrest
  · intro hmem
    rcases List.mem_append.1 hmem with hmem | hmem
    · exact hroot hmem
    · exact (List.mem_cons.1 hmem).elim hc hrest

theorem spelled_below :
    (root.below names).spelled = root.spelled.below (names.map FileName.spelled) := by
  refine spelled_ofSpelled fun c hmem => ?_
  by_contra hbyte
  have hspelled {bytes : List UInt8} : c ∉ bytes.map character := fun hmem =>
    hbyte (character_byte_of_mem hmem)
  refine not_mem_chars_below hne hnames ?_ ?_ (fun _ _ => hspelled) hmem
  · rintro rfl
    exact hbyte rfl
  · rw [chars_spelled]
    exact hspelled

theorem zero_not_mem_below (hroot : 0 ∉ root.bytes) (h : ∀ s ∈ names, 0 ∉ s.bytes) :
    0 ∉ (root.below names).bytes := by
  rw [← mem_map_character_iff, ← chars_spelled] at hroot ⊢
  rw [spelled_below hne hnames]
  exact not_mem_chars_below hne hnames (by decide) hroot fun s hs =>
    FileName.zero_mem_chars_iff.not.2 (h s hs)

theorem isAbsolute_below (hroot : root.bytes ≠ []) :
    (root.below names).isAbsolute = root.isAbsolute := by
  rw [isAbsolute, spelled_below hne hnames]
  exact Path.isAbsolute_below (by simpa using hroot) (by simpa using hne)
    (forall_isName_map_spelled hnames)

theorem bytes_below_ne_nil (hroot : root.bytes ≠ []) : (root.below names).bytes ≠ [] := by
  rw [below, bytes_ofSpelled, Path.chars_below (by simpa using hne) (forall_isName_map_spelled hnames)]
  split <;> simp [hroot]

end

/-- The pieces of a path with names behind it. -/
theorem exists_pieces_below (hroot : root.bytes ≠ []) :
    ∃ front, front ≠ [] ∧ (root.pieces = front ∨ root.pieces = front ++ [⟨[]⟩]) ∧
      ∀ names ≠ [], (∀ s ∈ names, IsName s.spelled) → (root.below names).pieces = front ++ names := by
  have hchars : root.spelled.chars ≠ [] := by simpa using hroot
  obtain ⟨front, hfront, hsegments, hbelow⟩ := Path.exists_segments_below hchars
  refine ⟨front.map .ofChars, by simpa using hfront, ?_, fun names hne hnames => ?_⟩
  · refine hsegments.imp (fun h => by rw [pieces, h]) fun h => ?_
    rw [pieces, h, List.map_append]
    rfl
  · have hplain := forall_isName_map_spelled hnames
    rw [pieces, spelled_below hne hnames, hbelow _ (by simpa using hne) hplain, List.map_append,
      FileName.map_toList_map_spelled, List.map_map (g := FileName.ofChars)]
    simp [Function.comp_def]

section
variable {last : FileName}

theorem map_spelled_append :
    (names ++ [last]).map FileName.spelled = names.map FileName.spelled ++ [last.spelled] := by
  rw [List.map_append, List.map_singleton]

section
variable (hnames : ∀ s ∈ names ++ [last], IsName s.spelled)
include hnames

theorem length_below_lt (hne : names ≠ []) :
    (root.below names).bytes.length < (root.below (names ++ [last])).bytes.length := by
  have hplain := forall_isName_map_spelled hnames
  rw [map_spelled_append] at hplain
  rw [below, below, bytes_ofSpelled, bytes_ofSpelled, map_spelled_append, Path.chars, Path.chars,
    Path.text_below_append (by simpa using hne) hplain]
  simp only [List.length_map, String.toList_append, List.length_append]
  have hslash : "/".toList.length = 1 := rfl
  omega

theorem isSome_parent?_below (hroot : root.bytes ≠ []) :
    (root.below (names ++ [last])).parent?.isSome := by
  have hplain := forall_isName_map_spelled hnames
  rw [parent?, spelled_below (by simp) hnames, Option.isSome_map]
  rw [map_spelled_append] at hplain ⊢
  exact Path.isSome_parent?_below (by simpa using hroot) hplain

/-- The parent of a path with several names behind it has one name less. -/
theorem parent?_spelled_below (hroot : root.bytes ≠ []) (hne : names ≠ []) :
    (root.below (names ++ [last])).spelled.parent? = some (root.below names).spelled := by
  have hplain := forall_isName_map_spelled hnames
  have hinit : ∀ s ∈ names, IsName s.spelled := fun s hs => hnames s (by simp [hs])
  rw [spelled_below (by simp) hnames, spelled_below hne hinit]
  rw [map_spelled_append] at hplain ⊢
  exact Path.parent?_below (by simpa using hroot) (by simpa using hne) hplain

end

end

end

end RawPath

end Scaffold
