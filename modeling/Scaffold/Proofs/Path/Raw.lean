import Mathlib.Data.List.Basic
import Scaffold.Path.Raw
import Scaffold.Proofs.Path.Join
import Scaffold.Proofs.Path.Segment
import Scaffold.Proofs.Text.Encoded

/-!
# Texts as paths of the system

The bytes of a text fall into pieces where the text does, so that a text means to the system what it
means as a path (`RawPath.components_ofText`). What is shown of a path, read as a path, means its
names as they are shown (`RawPath.components_display`), and these are its own exactly if it is text
(`RawPath.isText_iff_map_components`).
-/

namespace Scaffold

namespace RawPath

open Scaffold.Path (segments joinSegments innerComponent? firstComponent? componentsOf isIdle)

theorem character_toNat (b : UInt8) : (character b).toNat = b.toNat := by
  have h := b.toNat_lt
  have hvalid : b.toNat.isValidChar := .inl (by omega)
  rw [character, Char.ofNat, dif_pos hvalid]
  rfl

@[simp] theorem byte_character (b : UInt8) : byte (character b) = b := by
  rw [byte, character_toNat, UInt8.ofNat_toNat]

/-- The characters of a spelling are those of bytes. -/
theorem character_byte_of_mem {c : Char} {bytes : List UInt8} (h : c ∈ bytes.map character) :
    character (byte c) = c := by
  obtain ⟨b, -, rfl⟩ := List.mem_map.1 h
  rw [byte_character]

theorem mem_map_character_iff {b : UInt8} {bytes : List UInt8} :
    character b ∈ bytes.map character ↔ b ∈ bytes :=
  List.mem_map_of_injective (Function.LeftInverse.injective (g := byte) byte_character)

@[simp] theorem map_byte_map_character (bytes : List UInt8) :
    (bytes.map character).map byte = bytes := by
  simp [Function.comp_def]

theorem map_character_map_byte {cs : List Char} (h : ∀ c ∈ cs, character (byte c) = c) :
    (cs.map byte).map character = cs := by
  rw [List.map_map]
  exact (List.map_congr_left h).trans (List.map_id cs)

@[simp] theorem chars_spelled (p : RawPath) : p.spelled.chars = p.bytes.map character :=
  Path.chars_ofChars _

/-! ### The spelling of a text -/

/-- The characters that spell the bytes of some others. -/
def spelling (cs : List Char) : List Char := (cs.flatMap String.utf8EncodeChar).map character

theorem spelling_append (cs ds : List Char) : spelling (cs ++ ds) = spelling cs ++ spelling ds := by
  simp [spelling]

theorem spelling_cons (c : Char) (cs : List Char) :
    spelling (c :: cs) = (String.utf8EncodeChar c).map character ++ spelling cs := by
  simp [spelling]

theorem decodeFrom_spelling (cs : List Char) :
    Text.decodeFrom none ((spelling cs).map byte) = cs := by
  rw [spelling, map_byte_map_character, Text.decodeFrom_flatMap_utf8EncodeChar]

theorem spelling_injective : Function.Injective spelling :=
  Function.LeftInverse.injective (g := fun cs : List Char => Text.decodeFrom none (cs.map byte))
    decodeFrom_spelling

theorem chars_spelled_ofText (text : String) : (ofText text).spelled.chars = spelling text.toList := by
  rw [chars_spelled, ofText, Text.encoded_eq, spelling]

theorem map_character_of_lt {c : Char} (h : c.toNat < 0x80) :
    (String.utf8EncodeChar c).map character = [c] := by
  have hbytes := Text.bytes_utf8EncodeChar c
  generalize String.utf8EncodeChar c = bytes at hbytes
  cases hbytes with
  | one =>
    have hbyte : (UInt8.ofNat (c.toNat + 0)).toNat = c.toNat := Text.toNat_ofNat_add _ (by omega)
    rw [List.map_singleton, character, hbyte, Char.ofNat_toNat]
  | two | three | four => omega

/-- Below the number 128 every byte of a character is the character itself. -/
theorem eq_of_mem_map_character {c d : Char} (hd : d.toNat < 0x80)
    (h : d ∈ (String.utf8EncodeChar c).map character) : d = c := by
  by_cases hc : c.toNat < 0x80
  · rw [map_character_of_lt hc] at h
    exact List.mem_singleton.1 h
  · obtain ⟨b, hb, rfl⟩ := List.mem_map.1 h
    have hwide := (Text.bytes_utf8EncodeChar c).forall_le (Nat.not_lt.1 hc) b hb
    rw [character_toNat] at hd
    omega

/-! ### Components -/

/-- The spelling of a text falls into pieces where the text does. -/
theorem segments_spelling (cs : List Char) : segments (spelling cs) = (segments cs).map spelling := by
  induction cs with
  | nil => rfl
  | cons c cs ih =>
    rw [spelling_cons]
    by_cases hc : c = '/'
    · rw [hc, map_character_of_lt (by decide), segments, if_pos rfl, List.map_cons, ← ih]
      rfl
    · have hslash : '/' ∉ (String.utf8EncodeChar c).map character := fun h =>
        hc (eq_of_mem_map_character (by decide) h).symm
      cases hs : segments cs with
      | nil => exact absurd hs (Path.segments_ne_nil cs)
      | cons first rest =>
        rw [hs, List.map_cons] at ih
        rw [Path.segments_append_of_slash_not_mem hslash ih, segments, if_neg hc, hs]
        simp only [List.map_cons, spelling_cons]

theorem spelling_eq_nil_iff {cs : List Char} : spelling cs = [] ↔ cs = [] :=
  ⟨fun h => spelling_injective h, fun h => by rw [h]; rfl⟩

theorem spelling_eq_iff_of_dots {cs dots : List Char} (h : spelling dots = dots) :
    spelling cs = dots ↔ cs = dots :=
  ⟨fun heq => spelling_injective (heq.trans h.symm), fun heq => by rw [heq, h]⟩

theorem isIdle_spelling (cs : List Char) : isIdle (spelling cs) = isIdle cs := by
  have hdot : spelling cs = ['.'] ↔ cs = ['.'] := spelling_eq_iff_of_dots rfl
  rw [Bool.eq_iff_iff]
  simp [isIdle, spelling_eq_nil_iff, hdot]

/-- A component with its name in the spelling of its bytes. -/
def spelledComponent : Path.Component → Path.Component
  | .name text => .name (String.ofList (spelling text.toList))
  | c => c

/-- A component with its name as it is shown. -/
def shownComponent : Path.Component → Path.Component
  | .name text => .name (Text.shown (text.toList.map byte))
  | c => c

theorem shownComponent_spelledComponent (c : Path.Component) :
    shownComponent (spelledComponent c) = c := by
  cases c with
  | name text =>
    simp only [spelledComponent, shownComponent, String.toList_ofList, spelling,
      map_byte_map_character, ← Text.encoded_eq, Text.shown_encoded]
  | root | here | up => rfl

theorem spelledComponent_injective : Function.Injective spelledComponent :=
  Function.LeftInverse.injective (g := shownComponent) shownComponent_spelledComponent

theorem map_shownComponent_map_spelledComponent (cs : List Path.Component) :
    (cs.map spelledComponent).map shownComponent = cs := by
  simp [Function.comp_def, shownComponent_spelledComponent]

theorem innerComponent?_spelling (cs : List Char) :
    innerComponent? (spelling cs) = (innerComponent? cs).map spelledComponent := by
  have hup : spelling cs = ['.', '.'] ↔ cs = ['.', '.'] := spelling_eq_iff_of_dots rfl
  rw [innerComponent?, innerComponent?, isIdle_spelling]
  simp only [hup]
  split
  · rfl
  · split
    · rfl
    · simp [spelledComponent]

theorem firstComponent?_spelling (cs : List Char) (alone : Bool) :
    firstComponent? (spelling cs) alone = (firstComponent? cs alone).map spelledComponent := by
  have hhere : spelling cs = ['.'] ↔ cs = ['.'] := spelling_eq_iff_of_dots rfl
  rw [firstComponent?, firstComponent?, innerComponent?_spelling]
  simp only [List.isEmpty_iff, spelling_eq_nil_iff, hhere]
  split
  · cases alone <;> rfl
  · split <;> rfl

theorem componentsOf_spelling (pieces : List (List Char)) :
    componentsOf (pieces.map spelling) = (componentsOf pieces).map spelledComponent := by
  cases pieces with
  | nil => rfl
  | cons first rest =>
    have hrest : (rest.map spelling).filterMap innerComponent? =
        (rest.filterMap innerComponent?).map spelledComponent := by
      rw [List.filterMap_map, List.map_filterMap]
      exact List.filterMap_congr fun cs _ => innerComponent?_spelling cs
    rw [List.map_cons, componentsOf, componentsOf, List.map_append, hrest, List.isEmpty_map,
      firstComponent?_spelling]
    cases firstComponent? first rest.isEmpty <;> rfl

/-- A text means to the system what it means as a path. -/
theorem components_ofText (text : String) :
    (ofText text).components = (Path.components ⟨text⟩).map spelledComponent := by
  rw [components, Path.components, chars_spelled_ofText, segments_spelling, componentsOf_spelling]
  rfl

theorem same_iff {p q : RawPath} : p.same q = true ↔ p.components = q.components := Path.same_iff

theorem mem_map_spelledComponent_iff {c : Path.Component} (h : spelledComponent c = c)
    {cs : List Path.Component} : c ∈ cs.map spelledComponent ↔ c ∈ cs := by
  conv_lhs => rw [← h]
  exact List.mem_map_of_injective spelledComponent_injective

/-- A text is contained for the system where it is as a path. -/
theorem escape?_ofText (text : String) : (ofText text).spelled.escape? = Path.escape? ⟨text⟩ := by
  have hmem {c : Path.Component} (h : spelledComponent c = c) :
      c ∈ (ofText text).spelled.components ↔ c ∈ Path.components ⟨text⟩ := by
    have hcomponents : (ofText text).spelled.components = _ := components_ofText text
    rw [hcomponents, mem_map_spelledComponent_iff h]
  have habs : (ofText text).spelled.isAbsolute = Path.isAbsolute ⟨text⟩ := by
    rw [Bool.eq_iff_iff, ← Path.root_mem_components_iff, ← Path.root_mem_components_iff, hmem rfl]
  have hup : ['.', '.'] ∈ segments (ofText text).spelled.chars ↔
      ['.', '.'] ∈ segments (Path.chars ⟨text⟩) := by
    rw [← Path.up_mem_components_iff, ← Path.up_mem_components_iff, hmem rfl]
  simp only [Path.escape?_eq, habs, hup]

/-! ### Paths that are text -/

/-- A path whose bytes are those of a text. -/
def IsText (p : RawPath) : Prop := ∃ text, p = ofText text

theorem text_shownComponent (c : Path.Component) :
    (shownComponent c).text = Text.shown (c.text.toList.map byte) := by
  cases c with
  | name => rfl
  | root | here | up => rfl

theorem display_eq (p : RawPath) :
    p.display = "/".intercalate ((p.components.map shownComponent).map Path.Component.text) := by
  simp only [display, List.map_map, Function.comp_def, text_shownComponent]

theorem display_ofText (text : String) :
    (ofText text).display = "/".intercalate ((Path.components ⟨text⟩).map Path.Component.text) := by
  rw [display_eq, components_ofText, map_shownComponent_map_spelledComponent]

/-! ### Names that are shown -/

section
variable {p : RawPath} {s : String} (h : .name s ∈ p.components)
include h

/-- A name of a path is spelled by its bytes. -/
theorem map_character_map_byte_of_name : (s.toList.map byte).map character = s.toList := by
  obtain ⟨segment, hsegment, hs⟩ := Path.exists_mem_segments_of_mem_components h
  obtain ⟨-, -, rfl⟩ := Path.innerComponent?_eq_name_iff.1 hs
  refine map_character_map_byte fun c hc => ?_
  have hmem : c ∈ p.spelled.chars := Path.mem_of_mem_segments hsegment hc
  rw [chars_spelled] at hmem
  exact character_byte_of_mem hmem

/-- What is shown of a name is a name. -/
theorem isName_shown : Path.IsName (Text.shown (s.toList.map byte)) := by
  have hname := Path.isName_of_mem_components h
  have hspelled := map_character_map_byte_of_name h
  -- plain characters are shown as they are, so that none is gained and the rest is no name of dots
  have hascii (hall : ∀ c ∈ Text.decodeFrom none (s.toList.map byte), Text.IsAscii c) :
      Text.shown (s.toList.map byte) = s := by
    rw [Text.shown, Text.decodeFrom_eq_map_of_isAscii hall]
    exact (congrArg String.ofList hspelled).trans String.ofList_toList
  have hdot : Text.IsAscii '.' := by decide
  have hdots (dots : List Char) (hall : ∀ c ∈ dots, c = '.') (hne : s ≠ String.ofList dots) :
      Text.shown (s.toList.map byte) ≠ String.ofList dots := by
    intro heq
    have hout := String.ofList_injective heq
    exact hne ((hascii fun c hc => hall c (hout ▸ hc) ▸ hdot).symm.trans heq)
  refine ⟨hdots [] (by simp) hname.ne_empty, hdots ['.'] (by simp) hname.ne_here,
    hdots ['.', '.'] (by simp) hname.ne_up, fun hslash => hname.slash_not_mem ?_⟩
  rw [Text.shown, String.toList_ofList] at hslash
  obtain ⟨b, hb, heq⟩ := Text.exists_byte_of_mem_decodeFrom (by decide) (by simp) hslash
  rw [← hspelled]
  exact List.mem_map.2 ⟨b, hb, heq⟩

end

/-- What is shown of a path, read as a path, means its components as they are shown. -/
theorem components_display {p : RawPath} (hroot : .root ∉ p.components) :
    Path.components ⟨p.display⟩ = p.components.map shownComponent := by
  rw [display_eq]
  refine Path.components_intercalate_text ?_ ?_ ?_
  · intro s hs
    obtain ⟨c, hc, heq⟩ := List.mem_map.1 hs
    cases c with
    | name =>
      cases heq
      exact isName_shown hc
    | root | here | up => cases heq
  · intro hmem
    obtain ⟨c, hc, heq⟩ := List.mem_map.1 hmem
    cases c with
    | root => exact hroot hc
    | name | here | up => cases heq
  · rw [← List.map_tail]
    intro hmem
    obtain ⟨c, hc, heq⟩ := List.mem_map.1 hmem
    cases c with
    | here => exact (Path.not_mem_tail_components p.spelled).2 hc
    | name | root | up => cases heq

theorem joinSegments_map_spelling (pieces : List (List Char)) :
    joinSegments (pieces.map spelling) = spelling (joinSegments pieces) := by
  induction pieces with
  | nil => rfl
  | cons piece pieces ih =>
    cases pieces with
    | nil => rfl
    | cons next pieces =>
      have hslash : spelling ('/' :: joinSegments (next :: pieces)) =
          '/' :: spelling (joinSegments (next :: pieces)) := by
        rw [spelling_cons, map_character_of_lt (by decide), List.singleton_append]
      rw [List.map_cons, Path.joinSegments_cons (List.map_eq_nil_iff.not.2 (List.cons_ne_nil _ _)), ih,
        Path.joinSegments_cons (List.cons_ne_nil _ _), spelling_append, hslash]

/-- A path is text exactly if its names are. -/
theorem isText_iff {p : RawPath} :
    p.IsText ↔ ∀ s, .name s ∈ p.components → ∃ cs, s.toList = spelling cs := by
  constructor
  · rintro ⟨text, rfl⟩ s hs
    rw [components_ofText] at hs
    obtain ⟨c, -, heq⟩ := List.mem_map.1 hs
    cases c with
    | name s' =>
      cases heq
      exact ⟨s'.toList, String.toList_ofList⟩
    | root | here | up => cases heq
  · intro h
    have hpieces : ∀ segment ∈ segments p.spelled.chars, ∃ cs, segment = spelling cs := by
      intro segment hsegment
      by_cases hidle : isIdle segment = true
      · have hcases : segment = [] ∨ segment = ['.'] := by simpa [isIdle] using hidle
        rcases hcases with rfl | rfl
        · exact ⟨[], rfl⟩
        · exact ⟨['.'], rfl⟩
      · by_cases hup : segment = ['.', '.']
        · exact ⟨['.', '.'], hup⟩
        · have hinner : innerComponent? segment = some (.name (String.ofList segment)) := by
            rw [innerComponent?, if_neg hidle, if_neg hup]
          obtain ⟨cs, hcs⟩ := h _ (Path.mem_components_of_innerComponent? hsegment hinner)
          exact ⟨cs, String.toList_ofList.symm.trans hcs⟩
    obtain ⟨pieces, hsegments⟩ : ∃ pieces : List (List Char),
        segments p.spelled.chars = pieces.map spelling := by
      refine ⟨(segments p.spelled.chars).map fun cs => Text.decodeFrom none (cs.map byte), ?_⟩
      rw [List.map_map]
      refine ((List.map_congr_left fun segment hsegment => ?_).trans (List.map_id _)).symm
      obtain ⟨cs, rfl⟩ := hpieces segment hsegment
      rw [Function.comp_apply, decodeFrom_spelling, id]
    have hjoin := Path.joinSegments_segments p.spelled.chars
    rw [hsegments, joinSegments_map_spelling, chars_spelled] at hjoin
    refine ⟨String.ofList (joinSegments pieces), congrArg mk ?_⟩
    rw [← map_byte_map_character p.bytes, ← hjoin, spelling, map_byte_map_character, Text.encoded_eq,
      String.toList_ofList]

/-- A path is text exactly if nothing in it is replaced where it is shown. -/
theorem isText_iff_map_components {p : RawPath} :
    p.IsText ↔ (p.components.map shownComponent).map spelledComponent = p.components := by
  constructor
  · rintro ⟨text, rfl⟩
    rw [components_ofText, map_shownComponent_map_spelledComponent]
  · intro h
    rw [isText_iff]
    intro s hs
    have hall : p.components.map (spelledComponent ∘ shownComponent) = p.components.map id := by
      rw [← List.map_map, h, List.map_id]
    have heq := List.map_inj_left.1 hall _ hs
    exact ⟨_, (congrArg String.toList (Path.Component.name.inj heq)).symm.trans String.toList_ofList⟩

theorem IsText.of_components_eq {p q : RawPath} (hq : q.IsText) (h : p.components = q.components) :
    p.IsText := by
  rw [isText_iff_map_components, h]
  exact isText_iff_map_components.1 hq

end RawPath

end Scaffold
