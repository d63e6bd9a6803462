import Scaffold.Proofs.Store.History

/-!
# Stores that are trees

On a disk nothing is both a file and a directory, and nothing lies below a file. A history
of the store in memory keeps to that throughout exactly if each of its operations fits the
store that it meets (`treelike_throughout_iff`): no file is written at a directory, no
directory is made at or below a file, and a file at the empty path, below which everything
lies, is all that is stored. The store itself demands none of this, so that a file can come
to stand at a directory (`not_treelike_of_written_over`).
-/

namespace Scaffold.Memory

/-- No path is both a file and a directory, and nothing else is stored below a file. -/
structure Treelike (s : Memory) : Prop where
  disjoint : ∀ p : Path, s.files.contains p = true → s.directories.contains p = false
  leaves : ∀ p q : Path, s.files.contains p = true → s.has q = true → q.startsWith p = true →
    q.same p = true

/-- An operation that makes no directory at or below a file, writes no file at a directory, and has
a file at the empty path beside nothing else. -/
def Fits (s : Memory) : Operation → Prop
  | .change (.createDirectory p) =>
    p.text ≠ "" → ∀ q : Path, s.files.contains q = true → p.startsWith q = false
  | .change (.writeFile p _) => s.admits p = true →
    s.directories.contains p = false ∧ ∀ q : Path, s.has q = true → (q.text = "" ↔ p.text = "")
  | .change (.removeDirectory _) => True
  | .clear => True

variable {s t : Memory} {p q : Path}

/-! ### One operation -/

namespace Treelike

theorem mono (ht : t.Treelike) (hfiles : ∀ p, s.files.contains p = true → t.files.contains p = true)
    (hdirectories : ∀ p, s.directories.contains p = true → t.directories.contains p = true) :
    s.Treelike where
  disjoint p hp := Bool.eq_false_iff.2 fun hdirectory =>
    Bool.eq_false_iff.1 (ht.disjoint p (hfiles p hp)) (hdirectories p hdirectory)
  leaves p q hp hq := by
    refine ht.leaves p q (hfiles p hp) (has_iff.2 ?_)
    exact (has_iff.1 hq).imp (hfiles q) (hdirectories q)

theorem removeDirectory (ht : s.Treelike) (p : Path) : (s.removeDirectory p).Treelike :=
  ht.mono (fun _ h => (contains_files_removeDirectory.1 h).2)
    fun _ h => (contains_removeDirectory.1 h).2

/-- A directory of a tree does not lie at or below a file. -/
theorem not_prefix (ht : s.Treelike) (hp : s.files.contains p = true)
    (hq : s.directories.contains q = true) : ¬ p.components <+: q.components := by
  intro hprefix
  have hsame : q.same p = true := ht.leaves p q hp (has_iff.2 (.inr hq)) (Path.startsWith_iff.2 hprefix)
  have hkey : q.key = p.key := Path.key_eq_iff.2 (Path.same_iff.1 hsame)
  have hnone := ht.disjoint p hp
  rw [← PathMap.contains_eq_of_key_eq hkey, hq] at hnone
  cases hnone

end Treelike

theorem treelike_empty : empty.Treelike where
  disjoint _ h := absurd h Bool.false_ne_true
  leaves _ _ h := absurd h Bool.false_ne_true

theorem treelike_createDirectory_iff (ht : s.Treelike) : (s.createDirectory p).Treelike ↔
    (p.text ≠ "" → ∀ q : Path, s.files.contains q = true → p.startsWith q = false) := by
  constructor
  · intro h hp q hq
    have hmade : (s.createDirectory p).directories.contains p = true :=
      contains_createDirectory.2 (.inl ⟨mt Path.components_eq_nil_iff.1 hp, List.prefix_rfl⟩)
    exact Path.startsWith_eq_false_iff.2 (h.not_prefix (p := q) hq hmade)
  · intro h
    -- a directory that was made lies at or above `p`, and so does a file that it would lie below
    have hnew {q r : Path} (hq : s.files.contains q = true)
        (hr : (s.createDirectory p).directories.contains r = true) :
        ¬ q.components <+: r.components := by
      rcases contains_createDirectory.1 hr with ⟨hne, hrp⟩ | hr
      · have hp : p.text ≠ "" := fun hnil =>
          hne (List.prefix_nil.1 (Path.components_eq_nil_iff.2 hnil ▸ hrp))
        exact fun hqr => Path.startsWith_eq_false_iff.1 (h hp q hq) (hqr.trans hrp)
      · exact ht.not_prefix hq hr
    refine ⟨fun q hq => ?_, fun q r hq hr hbelow => ?_⟩
    · exact Bool.eq_false_iff.2 fun hdirectory => hnew hq hdirectory List.prefix_rfl
    · rcases has_iff.1 hr with hr | hr
      · exact ht.leaves q r hq (has_iff.2 (.inl hr)) hbelow
      · exact absurd (Path.startsWith_iff.1 hbelow) (hnew hq hr)

/-- In a tree, a file above a path that may be written stands at the empty path. -/
theorem Treelike.text_eq_empty_of_admits (ht : s.Treelike) (hadmits : s.admits p = true)
    (hq : s.files.contains q = true) (habove : p.startsWith q = true)
    (hother : q.components ≠ p.components) : q.text = "" := by
  have hprefix : q.components <+: p.parent.components := by
    rw [Path.components_parent]
    exact Path.prefix_dropLast_of_ne (Path.startsWith_iff.1 habove) hother
  rcases admits_iff.1 hadmits with hnil | hparent
  · rw [hnil, List.prefix_nil] at hprefix
    exact Path.components_eq_nil_iff.1 hprefix
  · exact absurd hprefix (ht.not_prefix hq hparent)

/-- A file may be written where there is no directory, but not at the empty path beside others and
not beside a file there. -/
theorem Treelike.insert (hs : s.Reachable) (ht : s.Treelike) (hadmits : s.admits p = true)
    (hnone : s.directories.contains p = false)
    (hempty : ∀ q : Path, s.has q = true → (q.text = "" ↔ p.text = "")) (content : String) :
    ({ s with files := s.files.insert p content } : Memory).Treelike := by
  have hsame {q : Path} (hq : s.has q = true) (h : q.text = "" ∨ p.text = "") :
      q.components = p.components := by
    have htext : q.text = p.text := by
      rcases h with h | h
      · rw [h, (hempty q hq).1 h]
      · rw [h, (hempty q hq).2 h]
    exact congrArg Path.components (congrArg Path.mk htext)
  have hbelow {q : Path} (hq : s.has q = true) (h : q.startsWith p = true) :
      q.components = p.components := by
    by_contra hother
    have hp : p.text ≠ "" := fun hp => hother (hsame hq (.inr hp))
    have hdirectory := hs.closed.contains_of_startsWith hp hq h (Ne.symm hother)
    exact Bool.false_ne_true (hnone.symm.trans hdirectory)
  have habove {q : Path} (hq : s.files.contains q = true) (h : p.startsWith q = true) :
      q.components = p.components := by
    by_contra hother
    have hq' : q.text = "" := ht.text_eq_empty_of_admits hadmits hq h hother
    exact hother (hsame (has_iff.2 (.inl hq)) (.inl hq'))
  refine ⟨fun q hq => ?_, fun q r hq hr h => ?_⟩
  · rcases (PathMap.contains_insert ..).1 hq with hkey | hq
    · rwa [← PathMap.contains_eq_of_key_eq hkey]
    · exact ht.disjoint q hq
  · rw [Path.same_iff]
    rw [has_iff, PathMap.contains_insert, or_assoc, ← has_iff] at hr
    rcases (PathMap.contains_insert ..).1 hq with hkey | hq <;> rcases hr with hkey' | hr
    · rw [← Path.key_eq_iff, ← hkey, ← hkey']
    · rw [← Path.key_eq_iff.1 hkey]
      refine hbelow hr ?_
      rwa [Path.startsWith, Path.key_eq_iff.1 hkey]
    · rw [← Path.key_eq_iff.1 hkey']
      refine (habove hq ?_).symm
      rwa [Path.startsWith, Path.key_eq_iff.1 hkey']
    · exact Path.same_iff.1 (ht.leaves q r hq hr h)

theorem treelike_insert_iff (hs : s.Reachable) (ht : s.Treelike) (hadmits : s.admits p = true)
    (content : String) : ({ s with files := s.files.insert p content } : Memory).Treelike ↔
      s.directories.contains p = false ∧
        ∀ q : Path, s.has q = true → (q.text = "" ↔ p.text = "") := by
  refine ⟨fun h => ?_, fun ⟨hnone, hempty⟩ => ht.insert hs hadmits hnone hempty content⟩
  have hwritten : (s.files.insert p content).contains p = true :=
    (PathMap.contains_insert ..).2 (.inl rfl)
  refine ⟨h.disjoint p hwritten, fun q hq => ?_⟩
  have hkept : s.files.contains q = true → (s.files.insert p content).contains q = true :=
    fun hq => (PathMap.contains_insert ..).2 (.inr hq)
  simp only [← Path.components_eq_nil_iff]
  constructor
  · intro hnil
    have hfile : s.files.contains q = true := (has_iff.1 hq).resolve_right fun hdirectory =>
      hs.text_ne_empty hdirectory (Path.components_eq_nil_iff.1 hnil)
    have hsame := h.leaves q p (hkept hfile) (has_iff.2 (.inl hwritten))
      (Path.startsWith_of_text_eq_empty (Path.components_eq_nil_iff.1 hnil) p)
    rw [Path.same_iff.1 hsame, hnil]
  · intro hnil
    have hsame := h.leaves p q hwritten (has_iff.2 ((has_iff.1 hq).imp_left hkept))
      (Path.startsWith_of_text_eq_empty (Path.components_eq_nil_iff.1 hnil) q)
    rw [Path.same_iff.1 hsame, hnil]

/-- What a tree becomes by an operation is a tree exactly if the operation fits it. -/
theorem treelike_after_iff (hs : s.Reachable) (ht : s.Treelike) (o : Operation) :
    (s.after o).Treelike ↔ s.Fits o := by
  cases o with
  | clear => exact ⟨fun _ => trivial, fun _ => treelike_empty⟩
  | change c =>
    cases c with
    | createDirectory p => exact treelike_createDirectory_iff ht
    | removeDirectory p => exact ⟨fun _ => trivial, fun _ => ht.removeDirectory p⟩
    | writeFile p content =>
      rw [after_writeFile, Fits]
      split
      · rename_i hadmits
        rw [treelike_insert_iff hs ht hadmits]
        exact ⟨fun h _ => h, fun h => h hadmits⟩
      · rename_i hrefused
        exact ⟨fun _ h => absurd h hrefused, fun _ => ht⟩

/-! ### Histories -/

/-- The store is a tree throughout a history exactly if each operation fits the store that
it meets. -/
theorem treelike_throughout_iff (history : List Operation) :
    (∀ before, before <+: history → (empty.afterAll before).Treelike) ↔
      ∀ before o, before ++ [o] <+: history → (empty.afterAll before).Fits o := by
  have hstep (before : List Operation) (o : Operation) (ht : (empty.afterAll before).Treelike) :
      (empty.afterAll (before ++ [o])).Treelike ↔ (empty.afterAll before).Fits o := by
    rw [afterAll_concat, treelike_after_iff (Reachable.empty.afterAll before) ht]
  constructor
  · intro h before o hprefix
    exact (hstep before o (h before ((List.prefix_append ..).trans hprefix))).1 (h _ hprefix)
  · intro h before hprefix
    -- the operations before the last have left a tree, which the last fits
    induction before using List.reverseRecOn with
    | nil => exact treelike_empty
    | append_singleton before o ih =>
      exact (hstep before o (ih ((List.prefix_append ..).trans hprefix))).2 (h before o hprefix)

/-- A file written at a directory, with another one in the directory. -/
def writtenOver : List Operation :=
  [.change (.createDirectory ⟨"a"⟩), .change (.writeFile ⟨"a"⟩ "x"), .change (.writeFile ⟨"a/b"⟩ "y")]

/-- One path is a file and a directory then, and the file is an ancestor of another. -/
theorem not_treelike_of_written_over :
    (empty.afterAll writtenOver).Reachable ∧
      (empty.afterAll writtenOver).files.contains ⟨"a"⟩ = true ∧
      (empty.afterAll writtenOver).directories.contains ⟨"a"⟩ = true ∧
      (empty.afterAll writtenOver).files.contains ⟨"a/b"⟩ = true ∧
      ¬ (empty.afterAll writtenOver).Treelike := by
  have hfile : (empty.afterAll writtenOver).files.contains ⟨"a"⟩ = true := by decide +kernel
  have hdirectory : (empty.afterAll writtenOver).directories.contains ⟨"a"⟩ = true := by
    decide +kernel
  refine ⟨Reachable.empty.afterAll writtenOver, hfile, hdirectory, by decide +kernel, fun h => ?_⟩
  exact Bool.false_ne_true ((h.disjoint _ hfile).symm.trans hdirectory)

end Scaffold.Memory
