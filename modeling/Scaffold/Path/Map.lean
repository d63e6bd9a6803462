import Scaffold.Path.Basic

/-!
# Maps from paths

A finite map whose entries stand in the order of their paths. Two spellings of one place are one
key, and the spelling that came first is kept.
-/

namespace Scaffold

/-- A finite map from paths, in the order of the paths. -/
structure PathMap (α : Type) where
  entries : List (Path × α)
  sorted : entries.Pairwise fun a b => a.1.key < b.1.key

namespace PathMap

variable {α : Type}

/-- The map without entries. -/
def empty : PathMap α := ⟨[], .nil⟩

instance : Inhabited (PathMap α) := ⟨empty⟩

instance [DecidableEq α] : DecidableEq (PathMap α) := fun m n =>
  decidable_of_iff (m.entries = n.entries) (by cases m; cases n; simp)

/-- Number of entries. -/
def size (m : PathMap α) : Nat := m.entries.length

/-- The value at a path. -/
def find? (m : PathMap α) (p : Path) : Option α :=
  (m.entries.find? fun e => e.1.same p).map (·.2)

/-- Whether the map has an entry at a path. -/
def contains (m : PathMap α) (p : Path) : Bool := m.entries.any fun e => e.1.same p

/-- The paths of the map, in order. -/
def paths (m : PathMap α) : List Path := m.entries.map (·.1)

/-- The entries with `p ↦ a` put where it belongs; an entry of the same place keeps its spelling. -/
def insertInto (p : Path) (a : α) : List (Path × α) → List (Path × α)
  | [] => [(p, a)]
  | (q, b) :: rest =>
    if p.key < q.key then (p, a) :: (q, b) :: rest
    else if p.key = q.key then (q, a) :: rest
    else (q, b) :: insertInto p a rest

/-- Every path after an insertion was there before or is the one inserted. -/
theorem path_of_mem_insertInto {p : Path} {a : α} {es : List (Path × α)} {e : Path × α}
    (h : e ∈ insertInto p a es) : e.1 = p ∨ ∃ e' ∈ es, e.1 = e'.1 := by
  induction es with
  | nil => simp_all [insertInto]
  | cons first rest ih =>
    simp only [insertInto] at h
    split at h
    · rcases List.mem_cons.1 h with rfl | h
      · exact .inl rfl
      · exact .inr ⟨e, h, rfl⟩
    · split at h
      · rcases List.mem_cons.1 h with rfl | h
        · exact .inr ⟨first, by simp, rfl⟩
        · exact .inr ⟨e, by simp [h], rfl⟩
      · rcases List.mem_cons.1 h with rfl | h
        · exact .inr ⟨first, by simp, rfl⟩
        · rcases ih h with h | ⟨e', he', h⟩
          · exact .inl h
          · exact .inr ⟨e', by simp [he'], h⟩

/-- Every key after an insertion was there before or is the key inserted. -/
theorem key_of_mem_insertInto {p : Path} {a : α} {es : List (Path × α)} {e : Path × α}
    (h : e ∈ insertInto p a es) : e.1.key = p.key ∨ ∃ e' ∈ es, e.1.key = e'.1.key :=
  (path_of_mem_insertInto h).imp (congrArg Path.key) fun ⟨e', he', heq⟩ =>
    ⟨e', he', congrArg Path.key heq⟩

theorem sorted_insertInto {p : Path} {a : α} {es : List (Path × α)}
    (h : es.Pairwise fun a b => a.1.key < b.1.key) :
    (insertInto p a es).Pairwise fun a b => a.1.key < b.1.key := by
  induction es with
  | nil => simp [insertInto]
  | cons first rest ih =>
    obtain ⟨hfirst, hrest⟩ := List.pairwise_cons.1 h
    simp only [insertInto]
    split
    · rename_i hlt
      refine List.pairwise_cons.2 ⟨fun e he => ?_, h⟩
      rcases List.mem_cons.1 he with rfl | he
      · exact hlt
      · exact Trans.trans hlt (hfirst e he)
    · split
      · exact List.pairwise_cons.2 ⟨hfirst, hrest⟩
      · rename_i hlt hne
        refine List.pairwise_cons.2 ⟨fun e he => ?_, ih hrest⟩
        rcases key_of_mem_insertInto he with heq | ⟨e', he', heq⟩
        · rw [heq]
          exact Std.lt_of_le_of_ne (Std.not_lt.1 hlt) (Ne.symm hne)
        · rw [heq]
          exact hfirst e' he'

/-- The map with a value put at a path. A place already there keeps its spelling. -/
def insert (m : PathMap α) (p : Path) (a : α) : PathMap α :=
  ⟨insertInto p a m.entries, sorted_insertInto m.sorted⟩

/-- The map with a value put at a path that has none; a place already there keeps its value. -/
def insertNew (m : PathMap α) (p : Path) (a : α) : PathMap α :=
  if m.contains p then m else m.insert p a

/-- The entries whose path satisfies a condition. -/
def filter (m : PathMap α) (keep : Path → Bool) : PathMap α :=
  ⟨m.entries.filter fun e => keep e.1, m.sorted.sublist List.filter_sublist⟩

/-- The map without the entry at a path. -/
def erase (m : PathMap α) (p : Path) : PathMap α := m.filter fun q => !q.same p

/-- The map with the given entries put in from first to last. -/
def ofList (es : List (Path × α)) : PathMap α := es.foldl (fun m e => m.insert e.1 e.2) empty

end PathMap

/-- A finite set of paths, in their order. -/
abbrev PathSet := PathMap Unit

/-- The set with a path added. -/
def PathSet.add (s : PathSet) (p : Path) : PathSet := s.insert p ()

end Scaffold
