import Scaffold.BaseCode.Directory
import Scaffold.Proofs.BaseCode.Basic
import Scaffold.Proofs.Error.Paths

/-!
# Base code from the files of a directory

The files of a directory that are text are put into a base code one after the other, each under its
path with slashes for backslashes (`BaseCode.texts`). A path that is not contained then breaks the
loading off, and of two files with one path the first is lost. Where neither happens, and only
there, a directory is loaded with all that is in it (`BaseCode.loadsAll_iff`).
-/

namespace Scaffold

namespace BaseCode

/-- The files that are text, under the paths by which a base code knows them. -/
def texts (found : List FoundFile) : List (Path × String) :=
  found.filterMap fun f => f.text?.map fun text => (⟨f.name⟩, text)

section
variable {found : List FoundFile}

theorem foldlM_insertFound_eq_ok_iff {base b : BaseCode} :
    found.foldlM insertFound base = .ok b ↔
      (∀ e ∈ texts found, e.1.escape? = none) ∧
        b.files = (texts found).foldl (fun m e => m.insert e.1 e.2) base.files := by
  induction found generalizing base with
  | nil =>
    obtain ⟨files, hfiles⟩ := b
    obtain ⟨files', hfiles'⟩ := base
    simp [texts, pure, Except.pure, eq_comm]
  | cons f found ih =>
    rw [List.foldlM_cons, bind_eq_ok_iff]
    cases htext : f.text? with
    | none =>
      have hstep : insertFound base f = .ok base := by rw [insertFound, htext]
      have htexts : texts (f :: found) = texts found := by simp [texts, htext]
      rw [htexts, ← ih]
      constructor
      · rintro ⟨base', hbase', h⟩
        cases hstep.symm.trans hbase'
        exact h
      · exact fun h => ⟨base, hstep, h⟩
    | some text =>
      have hstep : insertFound base f =
          (ContainedPath.relied f.name >>= fun path => pure (base.insert path text)) := by
        simp only [insertFound, htext]
      have htexts : texts (f :: found) = (⟨f.name⟩, text) :: texts found := by simp [texts, htext]
      rw [hstep, htexts, List.forall_mem_cons, List.foldl_cons]
      constructor
      · rintro ⟨base', hbase', h⟩
        obtain ⟨path, hpath, hinsert⟩ := bind_eq_ok_iff.1 hbase'
        obtain rfl : base.insert path text = base' := Except.ok.inj hinsert
        obtain ⟨hrest, hfiles⟩ := ih.1 h
        have heq : path.path = ⟨f.name⟩ := congrArg Path.mk (ContainedPath.relied_eq_ok_iff.1 hpath)
        exact ⟨⟨heq ▸ path.contained, hrest⟩, heq ▸ hfiles⟩
      · rintro ⟨⟨hcontained, hrest⟩, hfiles⟩
        refine ⟨base.insert ⟨⟨f.name⟩, hcontained⟩ text, ?_, ih.2 ⟨hrest, hfiles⟩⟩
        exact bind_eq_ok_iff.2 ⟨_, ContainedPath.relied_eq_ok_iff.2 rfl, rfl⟩

/-- Of the files of a directory nothing counts but the texts. -/
theorem foldlM_insertFound_eq (base : BaseCode) : found.foldlM insertFound base =
    (texts found).foldlM (fun base e => return base.insert (← ContainedPath.relied e.1.text) e.2)
      base := by
  induction found generalizing base with
  | nil => rfl
  | cons f found ih =>
    rw [List.foldlM_cons]
    cases htext : f.text? with
    | none =>
      have htexts : texts (f :: found) = texts found := by simp [texts, htext]
      rw [htexts, insertFound, htext]
      exact ih base
    | some text =>
      have htexts : texts (f :: found) = (⟨f.name⟩, text) :: texts found := by simp [texts, htext]
      rw [htexts, insertFound, htext, List.foldlM_cons]
      exact congrArg _ (funext ih)

theorem ofDirectory_congr {found' : List FoundFile} (root : Path) (h : texts found = texts found') :
    ofDirectory root (some found) = ofDirectory root (some found') := by
  simp only [ofDirectory, foldlM_insertFound_eq, h]

theorem exists_of_foldlM_insertFound_eq_error {base : BaseCode} {error : Error}
    (h : found.foldlM insertFound base = .error error) :
    ∃ e ∈ texts found, e.1.escape? ≠ none ∧ error = .breach e.1 := by
  induction found generalizing base with
  | nil => cases h
  | cons f found ih =>
    rw [List.foldlM_cons, bind_eq_error_iff] at h
    rcases h with h | ⟨base', -, h⟩
    · cases htext : f.text? with
      | none =>
        rw [insertFound, htext] at h
        cases h
      | some text =>
        simp only [insertFound, htext] at h
        rcases bind_eq_error_iff.1 h with h | ⟨path, -, h⟩
        · have hmem : ((⟨f.name⟩, text) : Path × String) ∈ texts (f :: found) := by
            simp [texts, htext]
          exact ⟨_, hmem, ContainedPath.relied_eq_error_iff.1 h⟩
        · cases h
    · obtain ⟨e, he, hbreach⟩ := ih h
      refine ⟨e, ?_, hbreach⟩
      rw [texts, List.mem_filterMap] at he ⊢
      obtain ⟨g, hg, heq⟩ := he
      exact ⟨g, List.mem_cons_of_mem f hg, heq⟩

/-- Base code whose files come from a list is complete if the list has all files that take part. -/
theorem ensureComplete_eq_ok_iff_of_files {base : BaseCode} {es : List (Path × String)}
    (h : base.files = .ofList es) :
    base.ensureComplete = .ok () ↔ ∀ file : BaseFile, ∃ e ∈ es, e.1.key = Path.key ⟨file.path⟩ := by
  rw [ensureComplete_eq_ok_iff]
  refine forall_congr' fun file => ?_
  rw [← PathMap.contains_ofList, ← h, PathMap.contains_eq_isSome_find?, content, content?]
  cases base.files.find? ⟨file.path⟩ <;> simp

/-- A directory gives a base code exactly if all paths are contained and no file that takes part in
the generation is missing. -/
theorem ofDirectory_eq_ok_iff {root : Path} {base : BaseCode} :
    ofDirectory root (some found) = .ok base ↔
      (∀ e ∈ texts found, e.1.escape? = none) ∧
        (∀ file : BaseFile, ∃ e ∈ texts found, e.1.key = Path.key ⟨file.path⟩) ∧
        base.files = .ofList (texts found) := by
  simp only [ofDirectory, bind_eq_ok_iff, mapError_eq_ok_iff]
  constructor
  · rintro ⟨base', hbase', ⟨⟩, hcomplete, h⟩
    obtain rfl : base' = base := Except.ok.inj h
    obtain ⟨hcontained, hfiles⟩ := foldlM_insertFound_eq_ok_iff.1 hbase'
    exact ⟨hcontained, (ensureComplete_eq_ok_iff_of_files hfiles).1 hcomplete, hfiles⟩
  · rintro ⟨hcontained, hall, hfiles⟩
    exact ⟨base, foldlM_insertFound_eq_ok_iff.2 ⟨hcontained, hfiles⟩, (),
      (ensureComplete_eq_ok_iff_of_files hfiles).2 hall, rfl⟩

theorem exists_ofDirectory_eq_ok (root : Path)
    (hcontained : ∀ e ∈ texts found, e.1.escape? = none)
    (hall : ∀ file : BaseFile, ∃ e ∈ texts found, e.1.key = Path.key ⟨file.path⟩) :
    ∃ base, ofDirectory root (some found) = .ok base := by
  cases h : found.foldlM insertFound empty with
  | ok base =>
    have hfiles := (foldlM_insertFound_eq_ok_iff.1 h).2
    exact ⟨base, ofDirectory_eq_ok_iff.2 ⟨hcontained, hall, hfiles⟩⟩
  | error error =>
    obtain ⟨e, he, hescape, -⟩ := exists_of_foldlM_insertFound_eq_error h
    exact absurd (hcontained e he) hescape

/-- The loading of a directory breaks off exactly if the path of a text is not contained. -/
theorem exists_breach_iff {root : Path} :
    (∃ path, ofDirectory root (some found) = .error (.breach path)) ↔
      ∃ e ∈ texts found, e.1.escape? ≠ none := by
  constructor
  · rintro ⟨path, h⟩
    rcases bind_eq_error_iff.1 h with h | ⟨base, -, h⟩
    · obtain ⟨e, he, hescape, -⟩ := exists_of_foldlM_insertFound_eq_error h
      exact ⟨e, he, hescape⟩
    · rcases bind_eq_error_iff.1 h with h | ⟨_, -, h⟩
      · obtain ⟨cause, -, hcause⟩ := mapError_eq_error_iff.1 h
        cases hcause
      · cases h
  · rintro ⟨e, he, hescape⟩
    cases h : found.foldlM insertFound empty with
    | ok base => exact absurd ((foldlM_insertFound_eq_ok_iff.1 h).1 e he) hescape
    | error error =>
      obtain ⟨e', -, -, rfl⟩ := exists_of_foldlM_insertFound_eq_error h
      exact ⟨e'.1, by rw [ofDirectory, h]; rfl⟩

end

end BaseCode

/-! ### Directories as they are stored -/

namespace BaseCode

/-- The loading of a directory never breaks off, and what it gives has one entry for each file that
is text, with its content. -/
structure LoadsAll (root : Path) (files : List StoredFile) : Prop where
  noBreach : ∀ path, ofDirectory root (some (files.map StoredFile.found)) ≠ .error (.breach path)
  entries : ∀ base, ofDirectory root (some (files.map StoredFile.found)) = .ok base →
    base.files.entries.Perm (texts (files.map StoredFile.found))

section
variable {root : Path} {files : List StoredFile}

/-- What is loaded has no key twice, so that texts that are its entries have not either. -/
theorem LoadsAll.nodup (h : LoadsAll root files)
    (hcontained : ∀ e ∈ texts (files.map StoredFile.found), e.1.escape? = none)
    (hall : ∀ file : BaseFile, ∃ e ∈ texts (files.map StoredFile.found),
      e.1.key = Path.key ⟨file.path⟩) :
    ((texts (files.map StoredFile.found)).map (·.1.key)).Nodup := by
  obtain ⟨base, hbase⟩ := exists_ofDirectory_eq_ok root hcontained hall
  obtain ⟨-, -, hfiles⟩ := ofDirectory_eq_ok_iff.1 hbase
  exact PathMap.perm_entries_ofList_iff.1 (hfiles ▸ h.entries base hbase)

end

/-- A directory is loaded with all that is in it exactly if the paths of its texts are contained
and, unless a file is missing that takes part in the generation, no two of them are one. -/
theorem loadsAll_iff (root : Path) (files : List StoredFile) :
    LoadsAll root files ↔
      (∀ e ∈ texts (files.map StoredFile.found), e.1.escape? = none) ∧
        ((∀ file : BaseFile, ∃ e ∈ texts (files.map StoredFile.found),
            e.1.key = Path.key ⟨file.path⟩) →
          ((texts (files.map StoredFile.found)).map (·.1.key)).Nodup) := by
  have hbreach : (∀ path, ofDirectory root (some (files.map StoredFile.found)) ≠
      .error (.breach path)) ↔
        ∀ e ∈ texts (files.map StoredFile.found), e.1.escape? = none := by
    have hexists : (¬ ∃ path, ofDirectory root (some (files.map StoredFile.found)) =
        .error (.breach path)) ↔
          ¬ ∃ e ∈ texts (files.map StoredFile.found), e.1.escape? ≠ none :=
      not_congr exists_breach_iff
    simpa only [not_exists, not_and, not_not] using hexists
  constructor
  · intro h
    have hcontained := hbreach.1 h.noBreach
    exact ⟨hcontained, h.nodup hcontained⟩
  · rintro ⟨hcontained, hnodup⟩
    refine ⟨hbreach.2 hcontained, fun base hbase => ?_⟩
    obtain ⟨-, hall, hfiles⟩ := ofDirectory_eq_ok_iff.1 hbase
    rw [hfiles, PathMap.perm_entries_ofList_iff]
    exact hnodup hall

/-- An empty file called `..\x` is taken for one outside the directory, and one called `notes\a` for
the `a` in `notes`. -/
theorem not_loadsAll_of_backslash :
    let empty (path : String) : StoredFile := ⟨path.toUTF8.toList, .empty⟩
    ¬ LoadsAll ⟨"templates"⟩ [empty "..\\x"] ∧
      ¬ LoadsAll ⟨"templates"⟩
        ((BaseFile.all.map BaseFile.path ++ ["notes/a", "notes\\a"]).map empty) := by
  intro empty
  constructor
  · intro h
    have hbreach : ofDirectory ⟨"templates"⟩ (some ([empty "..\\x"].map StoredFile.found)) =
        .error (.breach ⟨"../x"⟩) := by decide +kernel
    exact h.noBreach _ hbreach
  · have htexts : texts (((BaseFile.all.map BaseFile.path ++ ["notes/a", "notes\\a"]).map
        empty).map StoredFile.found) =
          (BaseFile.all.map BaseFile.path ++ ["notes/a", "notes/a"]).map (⟨·⟩, "") := by
      decide +kernel
    intro h
    have hnodup := h.nodup ?_ ?_
    · rw [htexts, List.map_append, List.map_append] at hnodup
      exact absurd (List.nodup_append.1 hnodup).2.1 (by simp)
    · rw [htexts]
      decide +kernel
    · intro file
      have hpath : file.path ∈ BaseFile.all.map BaseFile.path := List.mem_map_of_mem (mem_all file)
      refine ⟨(⟨file.path⟩, ""), ?_, rfl⟩
      rw [htexts]
      exact List.mem_map_of_mem (List.mem_append_left _ hpath)

end BaseCode

end Scaffold
