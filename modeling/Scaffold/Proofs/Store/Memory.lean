import Scaffold.Proofs.Path.Join
import Scaffold.Proofs.Path.Map
import Scaffold.Store.Memory

/-!
# What the store in memory holds

Every operation of the store in memory, by what is there afterwards. A store that was reached from
the empty one has, with anything it holds, the directories that this lies in (`Reachable.closed`).
So nothing lies below a path where there is nothing (`Closed.startsWith_eq_false`), the empty path
apart: it is no directory, and yet everything lies below it.
-/

namespace Scaffold

namespace Path

theorem startsWith_iff {p dir : Path} :
    p.startsWith dir = true ↔ dir.components <+: p.components := List.isPrefixOf_iff_prefix

theorem startsWith_eq_false_iff {p dir : Path} :
    p.startsWith dir = false ↔ ¬ dir.components <+: p.components := by
  rw [Bool.eq_false_iff, Ne, startsWith_iff]

/-- Everything lies below the empty path. -/
theorem startsWith_of_text_eq_empty {dir : Path} (h : dir.text = "") (p : Path) :
    p.startsWith dir = true := by
  rw [startsWith_iff, components_eq_nil_iff.2 h]
  exact List.nil_prefix

/-- What stands outside a directory is told by what it means. -/
theorem not_startsWith_congr (dir p q : Path) (h : p.key = q.key) :
    (!p.startsWith dir) = !q.startsWith dir := by
  rw [startsWith, startsWith, key_eq_iff.1 h]

end Path

namespace Memory

/-- The states that the store in memory can come to. -/
inductive Reachable : Memory → Prop
  | empty : Reachable .empty
  | createDirectory {s} : Reachable s → ∀ p, Reachable (s.createDirectory p)
  | writeFile {s s' p content} : Reachable s → s.writeFile p content = .ok s' → Reachable s'
  | removeDirectory {s} : Reachable s → ∀ p, Reachable (s.removeDirectory p)
  | clear {s} : Reachable s → Reachable s.clear

/-! ### Operations -/

/-- The paths of a trail mean the components of a path, from the first on. -/
theorem exists_mem_trail_iff {p q : Path} :
    (∃ r ∈ trail p, r.key = q.key) ↔ q.components ≠ [] ∧ q.components <+: p.components := by
  simp only [trail, List.mem_map, List.mem_range, exists_exists_and_eq_and, Path.key_eq_iff,
    Path.components_ofComponents <| List.take_prefix _ _]
  constructor
  · rintro ⟨n, hn, hq⟩
    refine ⟨?_, hq ▸ List.take_prefix _ _⟩
    rintro hnil
    rw [hnil, List.take_eq_nil_iff] at hq
    rcases hq with h | h
    · omega
    · simp [h] at hn
  · rintro ⟨hne, hp⟩
    have hpos := List.length_pos_iff.2 hne
    have hle := hp.length_le
    refine ⟨q.components.length - 1, by omega, ?_⟩
    rw [Nat.sub_add_cancel hpos, ← List.prefix_iff_eq_take.1 hp]

theorem contains_foldl_add (paths : List Path) (set : PathSet) (q : Path) :
    (paths.foldl PathSet.add set).contains q = true ↔
      (∃ p ∈ paths, p.key = q.key) ∨ set.contains q = true := by
  induction paths generalizing set with
  | nil => simp
  | cons p paths ih =>
    rw [List.foldl_cons, ih, PathSet.add, PathMap.contains_insert]
    simp only [List.mem_cons, exists_eq_or_imp]
    rw [or_left_comm, or_assoc]

variable {s s' : Memory} {p q : Path}

theorem contains_createDirectory :
    (s.createDirectory p).directories.contains q = true ↔
      (q.components ≠ [] ∧ q.components <+: p.components) ∨ s.directories.contains q = true := by
  rw [createDirectory, contains_foldl_add, exists_mem_trail_iff]

/-- A file may be written at the top and in a directory that is there. -/
theorem admits_iff : s.admits p = true ↔
    p.parent.components = [] ∨ s.directories.contains p.parent = true := by
  cases h : p.parent? with
  | none => simp [admits, Path.parent, h, Path.components_eq_nil_iff, Path.empty]
  | some q => simp [admits, Path.parent, h, Path.components_eq_nil_iff]

/-- A file may be written where its directory has just been made. -/
theorem admits_createDirectory_parent (s : Memory) (p : Path) :
    (s.createDirectory p.parent).admits p = true := by
  rw [admits_iff, contains_createDirectory]
  by_cases h : p.parent.components = []
  · exact .inl h
  · exact .inr (.inl ⟨h, List.prefix_rfl⟩)

theorem writeFile_eq_ok_iff {content : String} : s.writeFile p content = .ok s' ↔
    s.admits p = true ∧ s' = { s with files := s.files.insert p content } := by
  by_cases h : s.admits p = true <;> simp [writeFile, h, eq_comm]

theorem files_removeDirectory (s : Memory) (p : Path) :
    (s.removeDirectory p).files = s.files.filter fun q => !q.startsWith p := rfl

theorem find?_removeDirectory :
    (s.removeDirectory p).files.find? q =
      if q.startsWith p = true then none else s.files.find? q := by
  rw [removeDirectory, PathMap.find?_filter (Path.not_startsWith_congr p)]
  cases q.startsWith p <;> rfl

theorem contains_files_removeDirectory :
    (s.removeDirectory p).files.contains q = true ↔
      q.startsWith p = false ∧ s.files.contains q = true := by
  rw [removeDirectory, PathMap.contains_filter (Path.not_startsWith_congr p), Bool.not_eq_true']

theorem contains_removeDirectory :
    (s.removeDirectory p).directories.contains q = true ↔
      q.startsWith p = false ∧ s.directories.contains q = true := by
  rw [removeDirectory, PathMap.contains_filter (Path.not_startsWith_congr p), Bool.not_eq_true']

theorem has_iff : s.has p = true ↔
    s.files.contains p = true ∨ s.directories.contains p = true := by
  rw [has, Bool.or_eq_true]

theorem has_eq_of_key_eq (h : p.key = q.key) : s.has p = s.has q := by
  rw [has, has, PathMap.contains_eq_of_key_eq h, PathMap.contains_eq_of_key_eq h]

theorem has_removeDirectory_iff :
    (s.removeDirectory p).has q = true ↔ q.startsWith p = false ∧ s.has q = true := by
  rw [has_iff, has_iff, contains_files_removeDirectory, contains_removeDirectory, and_or_left]

@[simp] theorem run_apply_createDirectory (p : Path) (s : Memory) :
    (store.apply (.createDirectory p)).run s = (.ok (), s.createDirectory p) := rfl

theorem run_apply_writeFile (p : Path) (content : String) (s : Memory) :
    (store.apply (.writeFile p content)).run s =
      if s.admits p = true then (.ok (), { s with files := s.files.insert p content })
      else (.error (.run (.store p "Parent directory does not exist")), s) := by
  by_cases h : s.admits p = true
  · have hwrite : s.writeFile p content = .ok { s with files := s.files.insert p content } :=
      if_pos h
    rw [if_pos h]
    simp only [Store.apply, store, StateT.run_bind, StateT.run_get, pure_bind, hwrite]
    rfl
  · have hwrite : s.writeFile p content =
        .error (.run (.store p "Parent directory does not exist")) := if_neg h
    rw [if_neg h]
    simp only [Store.apply, store, StateT.run_bind, StateT.run_get, pure_bind, hwrite]
    rfl

/-! ### What lies in what -/

/-- With anything it holds, a store has the directories that this lies in. -/
structure Closed (s : Memory) : Prop where
  directories : ∀ {p q : Path}, s.directories.contains p = true → q.components ≠ [] →
    q.components <+: p.components → s.directories.contains q = true
  files : ∀ {p q : Path}, s.files.contains p = true → q.components ≠ [] →
    q.components <+: p.components.dropLast → s.directories.contains q = true

theorem closed_empty : Closed .empty where
  directories h := by simp [empty, PathMap.empty, PathMap.contains] at h
  files h := by simp [empty, PathMap.empty, PathMap.contains] at h

namespace Closed

theorem createDirectory (h : s.Closed) (p : Path) : (s.createDirectory p).Closed where
  directories := by
    intro q r hq hne hr
    rw [contains_createDirectory] at hq ⊢
    rcases hq with ⟨-, hp⟩ | hq
    · exact .inl ⟨hne, hr.trans hp⟩
    · exact .inr (h.directories hq hne hr)
  files := by
    intro q r hq hne hr
    exact contains_createDirectory.2 (.inr (h.files hq hne hr))

theorem writeFile (h : s.Closed) {content : String} (hs' : s.writeFile p content = .ok s') :
    s'.Closed := by
  obtain ⟨hadmits, rfl⟩ := writeFile_eq_ok_iff.1 hs'
  refine ⟨h.directories, fun {q r} hq hne hr => ?_⟩
  rcases (PathMap.contains_insert ..).1 hq with hkey | hq
  · -- the file just written lies in a directory that is there, with all that it lies in
    rw [← Path.key_eq_iff.1 hkey, ← Path.components_parent] at hr
    rcases admits_iff.1 hadmits with hnil | hparent
    · rw [hnil, List.prefix_nil] at hr
      exact absurd hr hne
    · exact h.directories hparent hne hr
  · exact h.files hq hne hr

theorem removeDirectory (h : s.Closed) (p : Path) : (s.removeDirectory p).Closed := by
  -- what lies at or below `p` has nothing above it that does not
  have habove {q r : Path} (hr : r.components <+: q.components) (hq : q.startsWith p = false) :
      r.startsWith p = false := by
    rw [Path.startsWith_eq_false_iff] at hq ⊢
    exact fun hp => hq (hp.trans hr)
  constructor
  · intro q r hq hne hr
    obtain ⟨hout, hq⟩ := contains_removeDirectory.1 hq
    exact contains_removeDirectory.2 ⟨habove hr hout, h.directories hq hne hr⟩
  · intro q r hq hne hr
    obtain ⟨hout, hq⟩ := contains_files_removeDirectory.1 hq
    refine contains_removeDirectory.2 ⟨habove (hr.trans <| List.dropLast_prefix _) hout, ?_⟩
    exact h.files hq hne hr

/-- A path that something else lies below is a directory. -/
theorem contains_of_startsWith (h : s.Closed) (hp : p.text ≠ "") (hq : s.has q = true)
    (hbelow : q.startsWith p = true) (hother : p.components ≠ q.components) :
    s.directories.contains p = true := by
  have hne : p.components ≠ [] := mt Path.components_eq_nil_iff.1 hp
  have hprefix : p.components <+: q.components := Path.startsWith_iff.1 hbelow
  rcases has_iff.1 hq with hq | hq
  · exact h.files hq hne (Path.prefix_dropLast_of_ne hprefix hother)
  · exact h.directories hq hne hprefix

/-- Nothing lies at or below a path where there is nothing. -/
theorem startsWith_eq_false (h : s.Closed) {root : Path} (hroot : root.text ≠ "")
    (hnew : s.has root = false) (hp : s.has p = true) : p.startsWith root = false := by
  rw [Bool.eq_false_iff, Ne] at hnew ⊢
  intro hbelow
  by_cases heq : root.components = p.components
  · exact hnew (has_eq_of_key_eq (Path.key_eq_iff.2 heq) ▸ hp)
  · exact hnew (has_iff.2 (.inr (h.contains_of_startsWith hroot hp hbelow heq)))

end Closed

theorem Reachable.closed (h : s.Reachable) : s.Closed := by
  induction h with
  | empty => exact closed_empty
  | createDirectory _ p ih => exact ih.createDirectory p
  | writeFile _ hwrite ih => exact ih.writeFile hwrite
  | removeDirectory _ p ih => exact ih.removeDirectory p
  | clear => exact closed_empty

end Memory

end Scaffold
