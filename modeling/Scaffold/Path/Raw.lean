import Scaffold.Path.Basic
import Scaffold.Text.Decoded

/-!
# Paths as the system has them

To the system a path is any string of bytes. It looks for slashes and dots in it and for nothing
else, so that the bytes need not be text; where a path is shown, what is no text in it is replaced.
-/

namespace Scaffold

/-- A path as the system has it. -/
structure RawPath where
  bytes : List UInt8
  deriving DecidableEq, Repr

namespace RawPath

/-- The character with the number of a byte. -/
def character (b : UInt8) : Char := Char.ofNat b.toNat

/-- The byte with the number of a character. -/
def byte (c : Char) : UInt8 := UInt8.ofNat c.toNat

/-- The path that a text is to the system. -/
def ofText (text : String) : RawPath := ⟨Text.encoded text⟩

/-- The path spelled with a character for every byte. Slashes and dots stand for themselves, so that
the spelling has the same pieces as the path. -/
def spelled (p : RawPath) : Path := .ofChars (p.bytes.map character)

/-- The path of a spelling. -/
def ofSpelled (p : Path) : RawPath := ⟨p.chars.map byte⟩

/-- What a path means, with its names in their spelling. -/
def components (p : RawPath) : List Path.Component := p.spelled.components

/-- Whether two paths mean the same place. -/
def same (p q : RawPath) : Bool := p.spelled.same q.spelled

/-- Whether a path starts at the root. -/
def isAbsolute (p : RawPath) : Bool := p.spelled.isAbsolute

/-- The path without its last component; `none` at the root and for the empty path. -/
def parent? (p : RawPath) : Option RawPath := p.spelled.parent?.map ofSpelled

/-- The path itself, then its parent, its parent's parent and so on. -/
def ancestors (p : RawPath) : List RawPath := p.spelled.ancestors.map ofSpelled

/-- The path as it is shown. -/
def shown (p : RawPath) : String := Text.shown p.bytes

/-- The components with slashes between them, each as it is shown. -/
def display (p : RawPath) : String :=
  "/".intercalate (p.components.map fun c => Text.shown (c.text.toList.map byte))

end RawPath

/-- Where the system is asked, a text stands for its bytes. -/
instance : Coe Path RawPath := ⟨fun p => .ofText p.text⟩

/-- A name as the system has it. -/
structure FileName where
  bytes : List UInt8
  deriving DecidableEq, Repr

namespace FileName

/-- The name that a text is to the system. -/
def ofText (text : String) : FileName := ⟨Text.encoded text⟩

/-- The characters that spell the name. -/
def chars (s : FileName) : List Char := s.bytes.map RawPath.character

/-- The name that characters spell. -/
def ofChars (cs : List Char) : FileName := ⟨cs.map RawPath.byte⟩

/-- The name in its spelling. -/
def spelled (s : FileName) : String := String.ofList s.chars

/-- The name as it is shown. -/
def shown (s : FileName) : String := Text.shown s.bytes

end FileName

instance : Coe String FileName := ⟨FileName.ofText⟩

/-- To a reader names are shown. -/
instance : Coe (List FileName) (List String) := ⟨List.map FileName.shown⟩

namespace RawPath

/-- The pieces of a path between its slashes. -/
def pieces (p : RawPath) : List FileName := (Path.segments p.spelled.chars).map .ofChars

/-- Names with slashes between them. -/
def ofNames (names : List FileName) : RawPath :=
  ⟨[byte '/'].intercalate (names.map FileName.bytes)⟩

end RawPath

end Scaffold
