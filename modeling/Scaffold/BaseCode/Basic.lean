import Scaffold.Error.Project
import Scaffold.Path.Map

/-!
# Base code

The base code is the set of template files that an application is made from. Its files stand in the
order of their paths, and every path is contained.
-/

namespace Scaffold

/-- The template files, in the order of their paths. -/
structure BaseCode where
  files : PathMap String
  contained : ∀ e ∈ files.entries, e.1.escape? = none

namespace BaseCode

/-- The base code without files. -/
def empty : BaseCode := ⟨.empty, by simp [PathMap.empty]⟩

instance : Inhabited BaseCode := ⟨empty⟩

instance : DecidableEq BaseCode := fun b c =>
  decidable_of_iff (b.files = c.files) (by cases b; cases c; simp)

/-- Number of files. -/
def size (base : BaseCode) : Nat := base.files.size

/-- The base code with a file put in, in the place of one at the same path. -/
def insert (base : BaseCode) (p : ContainedPath) (content : String) : BaseCode where
  files := base.files.insert p.path content
  contained := by
    intro e he
    rcases PathMap.path_of_mem_insertInto he with heq | ⟨e', he', heq⟩
    · rw [heq]; exact p.contained
    · rw [heq]; exact base.contained e' he'

/-- The base code without the file at a path. -/
def erase (base : BaseCode) (p : Path) : BaseCode where
  files := base.files.erase p
  contained := fun e he => base.contained e (List.mem_filter.1 he).1

/-- The content of the file at a path. -/
def content? (base : BaseCode) (p : Path) : Option String := base.files.find? p

/-- The content of a file that takes part in the generation. -/
def content (base : BaseCode) (file : BaseFile) : Except ProjectError String :=
  match base.content? ⟨file.path⟩ with
  | some content => .ok content
  | none => .error (.missingBaseFile file.path)

/-- Fails for the first file that the generation needs and the base code lacks. -/
def ensureComplete (base : BaseCode) : Except ProjectError Unit :=
  BaseFile.all.forM fun file => discard (base.content file)

/-- The directory of the models of an entity's files. -/
def modelDirectory : Path := ⟨"app/components/base"⟩

/-- The base code with the given files, put in from first to last. -/
def ofList (files : List (ContainedPath × String)) : BaseCode :=
  files.foldl (fun base f => base.insert f.1 f.2) empty

/-- All files with their contained paths, in the order of the paths. -/
def toList (base : BaseCode) : List (ContainedPath × String) :=
  base.files.entries.pmap (fun e contained => (⟨e.1, contained⟩, e.2)) base.contained

/-- The files that go into every application: all but the models. -/
def sharedFiles (base : BaseCode) : List (ContainedPath × String) :=
  base.toList.filter fun e => !e.1.path.startsWith modelDirectory

end BaseCode

/-! ### Paths of the system -/

/-- The template files at any paths of the system, no two of which mean the same. -/
structure RawBaseCode where
  files : List (ContainedRawPath × String)
  distinct : files.Pairwise fun e f => e.1.path.components ≠ f.1.path.components

/-- Whether two base codes have the same files, however their paths are spelled. -/
def RawBaseCode.Same (b c : RawBaseCode) : Prop :=
  (b.files.map fun e => (e.1.path.components, e.2)).Perm
    (c.files.map fun e => (e.1.path.components, e.2))

end Scaffold
