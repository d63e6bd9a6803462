import Scaffold.Proofs.Store.Memory

/-!
# Histories of the store in memory

The states of the store in memory are those that a history leads to, operations one after the other
with those that are refused among them (`reachable_iff_exists_afterAll`). After any history the
parent of what is stored is a directory there, so that nothing lies below a path where there is
nothing. And that is all there is to say of what a history leads to: whatever has its parents with
it comes of one, but for the empty path, which is never made a directory (`hasParents_exact`).
-/

namespace Scaffold

theorem Path.components_of_parent?_eq_some {p d : Path} (h : p.parent? = some d) :
    d.components = p.components.dropLast := by
  rw [← Path.components_parent, Path.parent, h, Option.getD_some]

namespace Memory

/-- An operation on the store in memory. -/
inductive Operation where
  | change (change : Change)
  | clear
  deriving DecidableEq, Repr

/-- The store after an operation, which leaves it as it was if it is refused. -/
def after (s : Memory) : Operation → Memory
  | .change c => ((store.apply c).run s).2
  | .clear => s.clear

/-- The store after operations one after the other. -/
def afterAll (s : Memory) (history : List Operation) : Memory := history.foldl after s

variable {s t : Memory}

theorem after_writeFile (s : Memory) (p : Path) (content : String) :
    s.after (.change (.writeFile p content)) =
      if s.admits p = true then { s with files := s.files.insert p content } else s := by
  rw [after, run_apply_writeFile]
  split <;> rfl

theorem afterAll_concat (s : Memory) (history : List Operation) (o : Operation) :
    s.afterAll (history ++ [o]) = (s.afterAll history).after o := by
  rw [afterAll, List.foldl_append]
  rfl

/-! ### States and histories -/

theorem Reachable.after (h : s.Reachable) (o : Operation) : (s.after o).Reachable := by
  cases o with
  | clear => exact h.clear
  | change c =>
    cases c with
    | createDirectory p => exact h.createDirectory p
    | removeDirectory p => exact h.removeDirectory p
    | writeFile p content =>
      rw [after_writeFile]
      split
      · exact h.writeFile (writeFile_eq_ok_iff.2 ⟨‹_›, rfl⟩)
      · exact h

theorem Reachable.afterAll (h : s.Reachable) (history : List Operation) :
    (s.afterAll history).Reachable := by
  induction history generalizing s with
  | nil => exact h
  | cons o history ih => exact ih (h.after o)

theorem reachable_iff_exists_afterAll : s.Reachable ↔ ∃ history, empty.afterAll history = s := by
  constructor
  · intro h
    induction h with
    | empty => exact ⟨[], rfl⟩
    | clear => exact ⟨[.clear], rfl⟩
    | createDirectory _ p ih =>
      obtain ⟨history, rfl⟩ := ih
      exact ⟨history ++ [.change (.createDirectory p)], afterAll_concat ..⟩
    | removeDirectory _ p ih =>
      obtain ⟨history, rfl⟩ := ih
      exact ⟨history ++ [.change (.removeDirectory p)], afterAll_concat ..⟩
    | @writeFile _ _ p content _ hwrite ih =>
      obtain ⟨history, rfl⟩ := ih
      obtain ⟨hadmits, rfl⟩ := writeFile_eq_ok_iff.1 hwrite
      refine ⟨history ++ [.change (.writeFile p content)], ?_⟩
      rw [afterAll_concat, after_writeFile, if_pos hadmits]
  · rintro ⟨history, rfl⟩
    exact Reachable.empty.afterAll history

/-! ### Parents -/

/-- The empty path is never made a directory. -/
theorem Reachable.text_ne_empty (h : s.Reachable) {p : Path}
    (hp : s.directories.contains p = true) : p.text ≠ "" := by
  rw [Ne, ← Path.components_eq_nil_iff]
  induction h with
  | empty | clear => exact absurd hp Bool.false_ne_true
  | createDirectory _ q ih =>
    rcases contains_createDirectory.1 hp with ⟨hne, -⟩ | hp
    · exact hne
    · exact ih hp
  | writeFile _ hwrite ih =>
    obtain ⟨-, rfl⟩ := writeFile_eq_ok_iff.1 hwrite
    exact ih hp
  | removeDirectory _ q ih => exact ih (contains_removeDirectory.1 hp).2

/-- The parents of the files and directories are directories that are there, the empty path
apart. -/
def HasParents (s : Memory) : Prop :=
  ∀ p d : Path, s.has p = true → p.parent? = some d → d.text ≠ "" → s.directories.contains d = true

theorem HasParents.contains_of_prefix_dropLast (hs : s.HasParents) {p q : Path} (hp : s.has p = true)
    (hne : q.components ≠ []) (hq : q.components <+: p.components.dropLast) :
    s.directories.contains q = true := by
  have hdrop : p.components.dropLast ≠ [] := fun hnil => hne (List.prefix_nil.1 (hnil ▸ hq))
  cases hparent : p.parent? with
  | none =>
    have hempty := p.components_parent
    rw [Path.parent, hparent] at hempty
    exact absurd hempty.symm hdrop
  | some d =>
    have hd : d.components = p.components.dropLast := Path.components_of_parent?_eq_some hparent
    have hstored : s.directories.contains d = true :=
      hs p d hp hparent (mt Path.components_eq_nil_iff.2 (hd ▸ hdrop))
    by_cases heq : q.components = d.components
    · rwa [PathMap.contains_eq_of_key_eq (Path.key_eq_iff.2 heq)]
    · exact hs.contains_of_prefix_dropLast (has_iff.2 (.inr hstored)) hne
        (Path.prefix_dropLast_of_ne (hd ▸ hq) heq)
termination_by p.components.length
decreasing_by
  have hpos : 0 < p.components.length := by
    refine List.length_pos_iff.2 fun hnil => hdrop ?_
    rw [hnil, List.dropLast_nil]
  rw [hd, List.length_dropLast]
  omega

theorem closed_iff : s.Closed ↔ s.HasParents := by
  constructor
  · intro h p d hp hparent hne
    have hd : d.components = p.components.dropLast := Path.components_of_parent?_eq_some hparent
    have hne : d.components ≠ [] := mt Path.components_eq_nil_iff.1 hne
    rcases has_iff.1 hp with hp | hp
    · exact h.files hp hne (hd ▸ List.prefix_rfl)
    · exact h.directories hp hne (hd ▸ List.dropLast_prefix _)
  · intro h
    refine ⟨fun {p q} hp hne hq => ?_,
      fun {p q} hp => h.contains_of_prefix_dropLast (has_iff.2 (.inl hp))⟩
    by_cases heq : q.components = p.components
    · rwa [PathMap.contains_eq_of_key_eq (Path.key_eq_iff.2 heq)]
    · exact h.contains_of_prefix_dropLast (has_iff.2 (.inr hp)) hne
        (Path.prefix_dropLast_of_ne hq heq)

/-! ### What histories lead to -/

/-- Two stores hold the same, but for the spelling of paths. -/
structure Alike (s t : Memory) : Prop where
  files : ∀ p, s.files.find? p = t.files.find? p
  directories : ∀ p, s.directories.contains p = t.directories.contains p

theorem Alike.has (h : s.Alike t) (p : Path) : s.has p = t.has p := by
  rw [Memory.has, Memory.has, PathMap.contains_eq_isSome_find?, h.files, h.directories,
    ← PathMap.contains_eq_isSome_find?]

theorem Alike.hasParents (h : s.Alike t) (hs : s.HasParents) : t.HasParents := by
  intro p d hp hparent hne
  rw [← h.directories]
  exact hs p d (h.has p ▸ hp) hparent hne

theorem files_afterAll_createDirectory (s : Memory) (paths : List Path) :
    (s.afterAll (paths.map fun p => .change (.createDirectory p))).files = s.files := by
  induction paths generalizing s with
  | nil => rfl
  | cons p paths ih => exact ih (s.createDirectory p)

theorem contains_afterAll_createDirectory {paths : List Path} {q : Path} :
    (s.afterAll (paths.map fun p => .change (.createDirectory p))).directories.contains q = true ↔
      (∃ p ∈ paths, q.components ≠ [] ∧ q.components <+: p.components) ∨
        s.directories.contains q = true := by
  induction paths generalizing s with
  | nil => simp [afterAll]
  | cons p paths ih =>
    have hstep := @ih (s.createDirectory p)
    rw [contains_createDirectory] at hstep
    rw [List.exists_mem_cons_iff, or_assoc, or_left_comm]
    exact hstep

theorem afterAll_writeFile {entries : List (Path × String)}
    (hadmits : ∀ e ∈ entries, s.admits e.1 = true) :
    s.afterAll (entries.map fun e => .change (.writeFile e.1 e.2)) =
      { s with files := entries.foldl (fun files e => files.insert e.1 e.2) s.files } := by
  induction entries generalizing s with
  | nil => rfl
  | cons e entries ih =>
    obtain ⟨hfirst, hrest⟩ := List.forall_mem_cons.1 hadmits
    have hstep : s.after (.change (.writeFile e.1 e.2)) =
        { s with files := s.files.insert e.1 e.2 } := by
      rw [after_writeFile, if_pos hfirst]
    rw [List.map_cons, afterAll, List.foldl_cons, hstep]
    exact ih hrest

/-- The directories that are there, made one by one, and then the files written. -/
def rebuilding (s : Memory) : List Operation :=
  (s.directories.paths.map fun p => .change (.createDirectory p)) ++
    s.files.entries.map fun e => .change (.writeFile e.1 e.2)

theorem contains_afterAll_directories (hs : s.Closed) (hnone : s.directories.contains .empty = false)
    (q : Path) : (empty.afterAll (s.directories.paths.map fun p =>
      .change (.createDirectory p))).directories.contains q = s.directories.contains q := by
  rw [Bool.eq_iff_iff, contains_afterAll_createDirectory]
  constructor
  · rintro (⟨p, hp, hne, hq⟩ | hq)
    · obtain ⟨e, he, rfl⟩ := List.mem_map.1 hp
      exact hs.directories (PathMap.contains_of_mem he) hne hq
    · exact absurd hq Bool.false_ne_true
  · intro hq
    obtain ⟨e, he, hkey⟩ := PathMap.mem_keys.1 (PathMap.contains_iff.1 hq)
    have hplace : e.1.components = q.components := Path.key_eq_iff.1 hkey
    refine .inl ⟨e.1, List.mem_map_of_mem he, fun hnil => ?_, hplace ▸ List.prefix_rfl⟩
    have hempty : q.key = Path.empty.key := Path.key_eq_iff.2 hnil
    rw [PathMap.contains_eq_of_key_eq hempty, hnone] at hq
    cases hq

theorem afterAll_rebuilding_alike (hs : s.Closed) (hnone : s.directories.contains .empty = false) :
    (empty.afterAll s.rebuilding).Alike s := by
  have hdirectories := contains_afterAll_directories hs hnone
  have hfiles := files_afterAll_createDirectory empty s.directories.paths
  rw [rebuilding, afterAll, List.foldl_append, ← afterAll, ← afterAll]
  generalize empty.afterAll (s.directories.paths.map _) = made at hdirectories hfiles ⊢
  have hadmits : ∀ e ∈ s.files.entries, made.admits e.1 = true := by
    intro e he
    rw [admits_iff, hdirectories]
    by_cases hnil : e.1.parent.components = []
    · exact .inl hnil
    · exact .inr (hs.files (PathMap.contains_of_mem he) hnil (e.1.components_parent ▸ List.prefix_rfl))
  rw [afterAll_writeFile hadmits]
  refine ⟨fun p => Option.ext fun content => ?_, hdirectories⟩
  have hsame : ∀ e ∈ s.files.entries, ∀ f ∈ s.files.entries, e.1.key = f.1.key → e.2 = f.2 :=
    fun e he f hf hkey => congrArg Prod.snd (PathMap.eq_of_key_eq he hf hkey)
  rw [hfiles]
  exact (PathMap.find?_ofList_eq_some_iff hsame).trans PathMap.find?_eq_some_iff.symm

/-- After any history the parent of what is stored is a directory there unless it is the empty path,
and below a path other than the empty one nothing is stored if there is nothing at it. Every store
with its parents and without a directory at the empty path is, but for the spelling of paths, the
outcome of some history. -/
theorem hasParents_exact :
    (∀ history, (empty.afterAll history).HasParents ∧
      ∀ p q : Path, p.text ≠ "" → (empty.afterAll history).has p = false →
        (empty.afterAll history).has q = true → q.startsWith p = false) ∧
    ∀ s : Memory, (∃ history, (empty.afterAll history).Alike s) ↔
      s.HasParents ∧ s.directories.contains .empty = false := by
  refine ⟨fun history => ?_, fun s => ⟨?_, ?_⟩⟩
  · have hclosed : (empty.afterAll history).Closed := (Reachable.empty.afterAll history).closed
    exact ⟨closed_iff.1 hclosed, fun p q hne hnone hq => hclosed.startsWith_eq_false hne hnone hq⟩
  · rintro ⟨history, h⟩
    have hreachable : (empty.afterAll history).Reachable := Reachable.empty.afterAll history
    refine ⟨h.hasParents (closed_iff.1 hreachable.closed), ?_⟩
    rw [← h.directories, Bool.eq_false_iff]
    exact fun hempty => hreachable.text_ne_empty hempty rfl
  · rintro ⟨hparents, hnone⟩
    exact ⟨s.rebuilding, afterAll_rebuilding_alike (closed_iff.2 hparents) hnone⟩

end Memory

end Scaffold
