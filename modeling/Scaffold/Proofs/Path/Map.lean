import Mathlib.Data.List.Nodup
import Scaffold.Path.Map
import Scaffold.Proofs.Path.Components

/-!
# Entries of path maps

The entries of a map before and after an insertion. A place that the map has keeps its spelling, so
that exact entries are known where the keys put in differ (`mem_entries_insert`), and keys alone
where they may repeat (`mem_keys_insertNew`). The values at all places are known in any case
(`find?_insert`, `find?_filter`).
-/

namespace Scaffold

namespace PathMap

variable {α : Type}

/-- The keys of the entries. -/
def keys (m : PathMap α) : List (List (List Nat)) := m.entries.map (·.1.key)

theorem mem_keys {m : PathMap α} {k : List (List Nat)} :
    k ∈ m.keys ↔ ∃ e ∈ m.entries, e.1.key = k := List.mem_map

theorem contains_iff {m : PathMap α} {p : Path} : m.contains p = true ↔ p.key ∈ m.keys := by
  simp [contains, Path.same, mem_keys]

theorem contains_of_mem {m : PathMap α} {e : Path × α} (he : e ∈ m.entries) :
    m.contains e.1 = true :=
  contains_iff.2 (mem_keys.2 ⟨e, he, rfl⟩)

/-- No two entries have one key. -/
theorem eq_of_key_eq {m : PathMap α} {e f : Path × α} (he : e ∈ m.entries) (hf : f ∈ m.entries)
    (h : e.1.key = f.1.key) : e = f := by
  obtain ⟨entries, hsorted⟩ := m
  simp only at he hf
  induction entries with
  | nil => simp at he
  | cons first rest ih =>
    obtain ⟨hfirst, hrest⟩ := List.pairwise_cons.1 hsorted
    rcases List.mem_cons.1 he with rfl | he' <;> rcases List.mem_cons.1 hf with rfl | hf'
    · rfl
    · exact absurd (h ▸ hfirst f hf') (List.lt_irrefl _)
    · exact absurd (h ▸ hfirst e he') (List.lt_irrefl _)
    · exact ih hrest he' hf'

/-- An entry is found under every spelling of its path. -/
theorem find?_of_mem {m : PathMap α} {e : Path × α} (he : e ∈ m.entries) {p : Path}
    (hp : e.1.key = p.key) : m.find? p = some e.2 := by
  have hsome : (m.entries.find? fun f => f.1.same p).isSome := by
    rw [List.find?_isSome]
    exact ⟨e, he, by simpa [Path.same] using hp⟩
  obtain ⟨f, hf⟩ := Option.isSome_iff_exists.1 hsome
  have hkey : f.1.key = p.key := by simpa [Path.same] using List.find?_some hf
  have heq : f = e := eq_of_key_eq (List.mem_of_find?_eq_some hf) he (hkey.trans hp.symm)
  rw [find?, hf, heq, Option.map_some]

/-- Under which spelling of a place a value is looked for makes no difference. -/
theorem find?_eq_of_key_eq {m : PathMap α} {p q : Path} (h : p.key = q.key) :
    m.find? p = m.find? q := by
  simp only [find?, Path.same, h]

theorem contains_eq_of_key_eq {m : PathMap α} {p q : Path} (h : p.key = q.key) :
    m.contains p = m.contains q := by
  simp only [contains, Path.same, h]

theorem find?_eq_some_iff {m : PathMap α} {p : Path} {a : α} :
    m.find? p = some a ↔ ∃ e ∈ m.entries, e.1.key = p.key ∧ e.2 = a := by
  constructor
  · intro h
    obtain ⟨e, he, rfl⟩ := Option.map_eq_some_iff.1 h
    exact ⟨e, List.mem_of_find?_eq_some he, by simpa [Path.same] using List.find?_some he, rfl⟩
  · rintro ⟨e, he, hkey, rfl⟩
    exact find?_of_mem he hkey

theorem mem_insertInto {p : Path} {a : α} {es : List (Path × α)}
    (h : ∀ e ∈ es, e.1.key ≠ p.key) {e : Path × α} :
    e ∈ insertInto p a es ↔ e = (p, a) ∨ e ∈ es := by
  induction es with
  | nil => simp [insertInto]
  | cons first rest ih =>
    have hne : ¬ p.key = first.1.key := fun heq => h first (by simp) heq.symm
    simp only [insertInto, if_neg hne]
    split
    · exact List.mem_cons
    · rw [List.mem_cons, ih fun e he => h e (by simp [he]), List.mem_cons]
      exact or_left_comm

theorem mem_entries_insert {m : PathMap α} {p : Path} {a : α} (h : p.key ∉ m.keys)
    {e : Path × α} : e ∈ (m.insert p a).entries ↔ e = (p, a) ∨ e ∈ m.entries :=
  mem_insertInto fun e he heq => h (mem_keys.2 ⟨e, he, heq⟩)

/-- What a selection of the entries leaves out, it leaves out wherever that is put. -/
theorem filterMap_entries_insert {β : Type} {m : PathMap α} {p : Path} {a : α} (h : p.key ∉ m.keys)
    {select : Path × α → Option β} (hselect : select (p, a) = none) :
    (m.insert p a).entries.filterMap select = m.entries.filterMap select := by
  have hentries : ∀ es : List (Path × α), (∀ e ∈ es, e.1.key ≠ p.key) →
      (insertInto p a es).filterMap select = es.filterMap select := by
    intro es hes
    induction es with
    | nil => simp [insertInto, hselect]
    | cons first rest ih =>
      obtain ⟨hfirst, hrest⟩ := List.forall_mem_cons.1 hes
      rw [insertInto]
      split
      · rw [List.filterMap_cons_none hselect]
      · rw [if_neg (Ne.symm hfirst), List.filterMap_cons, List.filterMap_cons, ih hrest]
  exact hentries m.entries fun e he heq => h (mem_keys.2 ⟨e, he, heq⟩)

theorem mem_entries_insertNew {m : PathMap α} {p : Path} {a : α} {e : Path × α}
    (h : e ∈ (m.insertNew p a).entries) : e = (p, a) ∨ e ∈ m.entries := by
  simp only [insertNew] at h
  split at h
  · exact .inr h
  · rename_i hc
    exact (mem_entries_insert fun hmem => hc (contains_iff.2 hmem)).1 h

theorem mem_keys_insertNew {m : PathMap α} {p : Path} {a : α} {k : List (List Nat)} :
    k ∈ (m.insertNew p a).keys ↔ k = p.key ∨ k ∈ m.keys := by
  simp only [insertNew]
  split
  · rename_i hc
    exact ⟨.inr, fun h => h.elim (fun heq => heq ▸ contains_iff.1 hc) id⟩
  · rename_i hc
    have hnot : p.key ∉ m.keys := fun hmem => hc (contains_iff.2 hmem)
    simp only [mem_keys, mem_entries_insert hnot]
    constructor
    · rintro ⟨e, rfl | he, rfl⟩
      · exact .inl rfl
      · exact .inr ⟨e, he, rfl⟩
    · rintro (rfl | ⟨e, he, rfl⟩)
      · exact ⟨(p, a), .inl rfl, rfl⟩
      · exact ⟨e, .inr he, rfl⟩

/-! ### Paths alone -/

section
variable {β : Type}

theorem paths_insertInto_congr {es : List (Path × α)} {fs : List (Path × β)}
    (h : es.map (·.1) = fs.map (·.1)) (p : Path) (a : α) (b : β) :
    (insertInto p a es).map (·.1) = (insertInto p b fs).map (·.1) := by
  induction es generalizing fs with
  | nil =>
    obtain rfl : fs = [] := by simpa using h.symm
    rfl
  | cons e es ih =>
    cases fs with
    | nil => cases h
    | cons f fs =>
      obtain ⟨hpath, hrest⟩ := List.cons.inj h
      simp only at hpath
      simp only [insertInto, hpath]
      split
      · simp [hrest]
      · split
        · simp [hrest]
        · simp [ih hrest]

/-- Which paths a map has does not depend on its values. -/
theorem paths_insertNew_congr {m : PathMap α} {n : PathMap β} (h : m.paths = n.paths) (p : Path)
    (a : α) (b : β) : (m.insertNew p a).paths = (n.insertNew p b).paths := by
  have hcontains : m.contains p = n.contains p := by
    have hany {γ : Type} (r : PathMap γ) : r.contains p = r.paths.any fun q => q.same p := by
      rw [paths, List.any_map]
      rfl
    rw [hany, hany, h]
  rw [insertNew, insertNew, hcontains]
  split
  · exact h
  · exact paths_insertInto_congr h p a b

end

/-! ### Values -/

theorem contains_eq_isSome_find? (m : PathMap α) (p : Path) :
    m.contains p = (m.find? p).isSome := by
  rw [find?, Option.isSome_map, Bool.eq_iff_iff, List.find?_isSome, contains, List.any_eq_true]

theorem find?_insertInto (p q : Path) (a : α) (es : List (Path × α)) :
    ((insertInto p a es).find? fun e => e.1.same q).map (·.2) =
      if p.key = q.key then some a else (es.find? fun e => e.1.same q).map (·.2) := by
  induction es with
  | nil => by_cases hpq : p.key = q.key <;> simp [insertInto, Path.same, hpq]
  | cons first rest ih =>
    simp only [insertInto]
    split
    · by_cases hpq : p.key = q.key <;> simp [Path.same, hpq]
    · split
      · rename_i heq
        by_cases hpq : p.key = q.key
        · simp [Path.same, ← heq, hpq]
        · simp [Path.same, ← heq, hpq]
      · rename_i hne
        by_cases hfirst : first.1.key = q.key
        · have hpq : p.key ≠ q.key := fun h => hne (h.trans hfirst.symm)
          simp [Path.same, hfirst, hpq]
        · simpa [List.find?_cons, Path.same, hfirst] using ih

/-- An insertion gives one place its value and leaves the others alone. -/
theorem find?_insert (m : PathMap α) (p q : Path) (a : α) :
    (m.insert p a).find? q = if p.key = q.key then some a else m.find? q :=
  find?_insertInto p q a m.entries

theorem contains_insert (m : PathMap α) (p q : Path) (a : α) :
    (m.insert p a).contains q = true ↔ p.key = q.key ∨ m.contains q = true := by
  rw [contains_eq_isSome_find?, contains_eq_isSome_find?, find?_insert]
  split <;> simp [*]

/-! ### Maps from lists -/

theorem nodup_keys (m : PathMap α) : m.keys.Nodup := by
  rw [keys, List.Nodup, List.pairwise_map]
  refine m.sorted.imp fun {e f} hlt heq => ?_
  rw [heq] at hlt
  exact List.lt_irrefl _ hlt

theorem mem_entries_foldl_insert {es : List (Path × α)} (m : PathMap α)
    (hm : ∀ e ∈ es, e.1.key ∉ m.keys) (hnodup : (es.map (·.1.key)).Nodup) {e : Path × α} :
    e ∈ (es.foldl (fun m e => m.insert e.1 e.2) m).entries ↔ e ∈ m.entries ∨ e ∈ es := by
  induction es generalizing m with
  | nil => simp
  | cons f es ih =>
    obtain ⟨hf, hnodup⟩ := List.nodup_cons.1 hnodup
    have hinsert (e : Path × α) : e ∈ (m.insert f.1 f.2).entries ↔ e = f ∨ e ∈ m.entries :=
      mem_entries_insert (hm f (by simp))
    have hstep : ∀ g ∈ es, g.1.key ∉ (m.insert f.1 f.2).keys := by
      intro g hg hmem
      obtain ⟨e, he, heq⟩ := mem_keys.1 hmem
      rcases (hinsert e).1 he with rfl | he
      · exact hf (List.mem_map.2 ⟨g, hg, heq.symm⟩)
      · exact hm g (by simp [hg]) (mem_keys.2 ⟨e, he, heq⟩)
    rw [List.foldl_cons, ih _ hstep hnodup, hinsert, List.mem_cons, or_assoc, or_left_comm]

section
variable {es : List (Path × α)}

theorem mem_entries_ofList (hnodup : (es.map (·.1.key)).Nodup) {e : Path × α} :
    e ∈ (ofList es).entries ↔ e ∈ es := by
  rw [ofList, mem_entries_foldl_insert empty (by simp [empty, keys]) hnodup]
  simp [empty]

/-- A map from a list has the entries of the list, one for one, exactly if no two of them have one
key. -/
theorem perm_entries_ofList_iff : (ofList es).entries.Perm es ↔ (es.map (·.1.key)).Nodup := by
  constructor
  · intro hperm
    exact (hperm.map fun e : Path × α => e.1.key).nodup_iff.1 (nodup_keys (ofList es))
  · intro hnodup
    have hentries : (ofList es).entries.Nodup :=
      List.Nodup.of_map (fun e : Path × α => e.1.key) (nodup_keys (ofList es))
    exact (List.perm_ext_iff_of_nodup hentries (hnodup.of_map _)).2 fun _ =>
      mem_entries_ofList hnodup

theorem contains_ofList {p : Path} :
    (ofList es).contains p = true ↔ ∃ e ∈ es, e.1.key = p.key := by
  have hfold (m : PathMap α) : (es.foldl (fun m e => m.insert e.1 e.2) m).contains p = true ↔
      (∃ e ∈ es, e.1.key = p.key) ∨ m.contains p = true := by
    induction es generalizing m with
    | nil => simp
    | cons f es ih =>
      rw [List.foldl_cons, ih, contains_insert, List.exists_mem_cons_iff, or_assoc, or_left_comm]
  rw [ofList, hfold]
  simp [contains, empty]

/-- Where entries of one place do not differ, a map from a list has the values of the list. -/
theorem find?_ofList_eq_some_iff (hes : ∀ e ∈ es, ∀ f ∈ es, e.1.key = f.1.key → e.2 = f.2) {p : Path}
    {a : α} : (ofList es).find? p = some a ↔ ∃ e ∈ es, e.1.key = p.key ∧ e.2 = a := by
  -- what a map has before the fold counts only where the list has nothing
  have hfold (m : PathMap α) : (es.foldl (fun m e => m.insert e.1 e.2) m).find? p = some a ↔
      (∃ e ∈ es, e.1.key = p.key ∧ e.2 = a) ∨
        (∀ e ∈ es, e.1.key ≠ p.key) ∧ m.find? p = some a := by
    induction es generalizing m with
    | nil => simp
    | cons f es ih =>
      have hrest := ih (fun e he g hg => hes e (by simp [he]) g (by simp [hg])) (m.insert f.1 f.2)
      rw [List.foldl_cons, hrest, find?_insert, List.exists_mem_cons_iff, List.forall_mem_cons]
      by_cases hf : f.1.key = p.key
      · rw [if_pos hf]
        constructor
        · rintro (h | ⟨-, h⟩)
          · exact .inl (.inr h)
          · exact .inl (.inl ⟨hf, Option.some.inj h⟩)
        · rintro ((⟨-, rfl⟩ | h) | ⟨⟨hne, -⟩, -⟩)
          · by_cases hmore : ∃ e ∈ es, e.1.key = p.key
            · obtain ⟨e, he, hkey⟩ := hmore
              exact .inl ⟨e, he, hkey, hes e (by simp [he]) f (by simp) (hkey.trans hf.symm)⟩
            · exact .inr ⟨fun e he hkey => hmore ⟨e, he, hkey⟩, rfl⟩
          · exact .inl h
          · exact absurd hf hne
      · simp [hf]
  rw [ofList, hfold]
  simp [find?, empty]

end

/-! ### Filtering

A condition on places looks at what a path means and not at how it is spelled. -/

section
variable {keep : Path → Bool} (hkeep : ∀ p q : Path, p.key = q.key → keep p = keep q)
include hkeep

theorem find?_filter (m : PathMap α) (p : Path) :
    (m.filter keep).find? p = if keep p = true then m.find? p else none := by
  have hcond (e : Path × α) : (keep e.1 && e.1.same p) = (keep p && e.1.same p) := by
    cases hsame : e.1.same p with
    | false => rw [Bool.and_false, Bool.and_false]
    | true => rw [hkeep e.1 p (by simpa [Path.same] using hsame)]
  rw [find?, filter, List.find?_filter]
  simp only [Bool.decide_and, Bool.decide_eq_true, hcond]
  cases keep p <;> simp [find?]

theorem contains_filter (m : PathMap α) (p : Path) :
    (m.filter keep).contains p = true ↔ keep p = true ∧ m.contains p = true := by
  rw [contains_eq_isSome_find?, contains_eq_isSome_find?, find?_filter hkeep]
  split <;> simp [*]

/-- What is put at a place that is left out leaves no trace. -/
theorem filter_insert_of_keep_eq_false (m : PathMap α) {p : Path} (hp : keep p = false) (a : α) :
    (m.insert p a).filter keep = m.filter keep := by
  have hentries : ∀ es : List (Path × α), (insertInto p a es).filter (fun e => keep e.1) =
      es.filter fun e => keep e.1 := by
    intro es
    induction es with
    | nil => simp [insertInto, hp]
    | cons first rest ih =>
      simp only [insertInto]
      split
      · simp [hp]
      · split
        · rename_i heq
          have hfirst : keep first.1 = false := (hkeep _ _ heq).symm.trans hp
          simp [hfirst]
        · rw [List.filter_cons, List.filter_cons, ih]
  simp only [filter, insert, hentries]

end

theorem filter_eq_self {m : PathMap α} {keep : Path → Bool}
    (h : ∀ e ∈ m.entries, keep e.1 = true) : m.filter keep = m := by
  have hentries : m.entries.filter (fun e => keep e.1) = m.entries := List.filter_eq_self.2 h
  simp only [filter, hentries]

end PathMap

end Scaffold
