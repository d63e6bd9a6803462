import Scaffold.Disk.Basic
import Scaffold.Proofs.Error.Steps
import Scaffold.Proofs.Path.Map
import Scaffold.Proofs.Path.RawBelow

/-!
# Ways through a disk

Places of names are told apart by their spellings. A path is followed piece by piece, so that what
it leads to through a first part, the rest goes on from (`Disk.follow_append`). Below a path that
leads to a directory, names lead down from there (`Disk.locate_below`).
-/

namespace Scaffold

open Scaffold.Path (IsName segments)

namespace Place

variable {place : Place}

theorem components_spelled (h : ∀ s ∈ place, IsName s.spelled) :
    place.spelled.components = .root :: place.map fun s => .name s.spelled := by
  have hall := RawPath.forall_isName_map_spelled h
  have hchars : place.spelled.chars =
      '/' :: ("/".intercalate (place.map FileName.spelled)).toList := by
    rw [Path.chars, spelled, String.toList_append]
    rfl
  have hrest : (segments ("/".intercalate (place.map FileName.spelled)).toList).filterMap
      Path.innerComponent? = place.map fun s => .name s.spelled := by
    cases place with
    | nil => simp [segments, Path.innerComponent?, Path.isIdle]
    | cons s place =>
      rw [Path.segments_intercalate (by simp) hall, Path.filterMap_innerComponent?_names hall,
        List.map_map]
      rfl
  rw [Path.components, hchars, segments, if_pos rfl, Path.componentsOf, hrest]
  simp [Path.firstComponent?, Path.segments_ne_nil]

theorem ofSpelled_of_components {p : Path}
    (h : p.components = .root :: place.map fun s => .name s.spelled) : ofSpelled p = place := by
  rw [ofSpelled, h, List.filterMap_cons, List.filterMap_map]
  refine (List.filterMap_congr fun s _ => ?_).trans List.filterMap_some
  simp

theorem key_spelled_eq_iff {place' : Place} (h : ∀ s ∈ place, IsName s.spelled)
    (h' : ∀ s ∈ place', IsName s.spelled) :
    place.spelled.key = place'.spelled.key ↔ place = place' := by
  rw [Path.key_eq_iff, components_spelled h, components_spelled h', List.cons.injEq, and_iff_right rfl]
  exact List.map_inj_right fun _ _ heq => FileName.spelled_injective (Path.Component.name.inj heq)

end Place

namespace Disk

/-- A name under which a disk stores something. -/
structure IsFileName (s : FileName) : Prop where
  isName : IsName s.spelled
  zero_not_mem : 0 ∉ s.bytes
  short : s.bytes.length ≤ maxName

instance (s : FileName) : Decidable (IsFileName s) :=
  decidable_of_iff (IsName s.spelled ∧ 0 ∉ s.bytes ∧ s.bytes.length ≤ maxName)
    ⟨fun ⟨isName, zero_not_mem, short⟩ => ⟨isName, zero_not_mem, short⟩,
      fun ⟨isName, zero_not_mem, short⟩ => ⟨isName, zero_not_mem, short⟩⟩

/-- Where a path leads. -/
def Target.place : Target → Place
  | found place _ => place
  | vacant place _ => place

variable {d : Disk} {place : Place} {node : Node}

/-! ### What stands at a place -/

theorem ne_nil_of_node?_eq_none (h : d.node? place = none) : place ≠ [] := by
  rintro rfl
  cases h

theorem node?_eq_of_key_eq {q : Place} (hplace : place ≠ []) (hq : q ≠ [])
    (h : place.spelled.key = q.spelled.key) : d.node? place = d.node? q := by
  rw [node?, node?, if_neg (by simpa using hplace), if_neg (by simpa using hq),
    PathMap.find?_eq_of_key_eq h]

theorem node?_put {q : Place} (hq : q ≠ []) :
    (d.put place node).node? q =
      if place.spelled.key = q.spelled.key then some node else d.node? q := by
  have hempty : q.isEmpty = false := by simpa using hq
  simp only [node?, hempty, Bool.false_eq_true, if_false, put]
  exact PathMap.find?_insert _ _ _ _

theorem node?_put_self (h : place ≠ []) : (d.put place node).node? place = some node := by
  rw [node?_put h, if_pos rfl]

/-- What is put where there is nothing leaves alone what there is. -/
theorem node?_put_of_eq_some (h : d.node? place = none) {q : Place} {m : Node}
    (hq : d.node? q = some m) : (d.put place node).node? q = some m := by
  by_cases hnil : q = []
  · rw [hnil] at hq ⊢
    exact hq
  · rw [node?_put hnil, if_neg]
    · exact hq
    · intro hkey
      have hsame := node?_eq_of_key_eq (d := d) (ne_nil_of_node?_eq_none h) hnil hkey
      rw [h, hq] at hsame
      cases hsame

/-! ### Following pieces -/

/-- One piece of a path leads from a place with its node to another. -/
inductive Step (d : Disk) : Place → Node → FileName → Place → Node → Prop
  | idle {place : Place} {piece : FileName} : Path.isIdle piece.chars = true →
    Step d place .directory piece place .directory
  | up {place : Place} {piece : FileName} : piece.chars = ['.', '.'] →
    Step d place .directory piece place.dropLast .directory
  | name {place : Place} {piece : FileName} {node : Node} : Path.isIdle piece.chars = false →
    piece.chars ≠ ['.', '.'] → piece.bytes.length ≤ maxName →
    d.node? (place ++ [piece]) = some node → Step d place .directory piece (place ++ [piece]) node

theorem follow_of_step {piece : FileName} {place' : Place} {node' : Node}
    (h : d.Step place node piece place' node') (rest : List FileName) :
    d.follow place node (piece :: rest) = d.follow place' node' rest := by
  cases h with
  | idle hidle => simp [follow, Node.isDirectory, hidle]
  | up hup => simp [follow, Node.isDirectory, Path.isIdle, hup]
  | name hidle hup hshort hnode =>
    simp [follow, Node.isDirectory, hidle, hup, Nat.not_lt.2 hshort, hnode]

/-- A path that leads somewhere goes on behind its first piece, or ends there at a place where
nothing stands. -/
theorem of_follow_cons_eq_ok {piece : FileName} {rest : List FileName} {target : Target}
    (h : d.follow place node (piece :: rest) = .ok target) :
    (∃ place' node', d.Step place node piece place' node' ∧
        d.follow place' node' rest = .ok target) ∨
      Path.isIdle piece.chars = false ∧ piece.chars ≠ ['.', '.'] ∧
        d.node? (place ++ [piece]) = none ∧
        target = .vacant (place ++ [piece]) (!rest.isEmpty) := by
  rw [follow] at h
  split at h
  · cases h
  · rename_i hnode
    obtain rfl : node = .directory := by
      cases node <;> simp_all [Node.isDirectory]
    split at h
    · rename_i hidle
      exact .inl ⟨_, _, .idle hidle, h⟩
    · rename_i hidle
      split at h
      · rename_i hup
        exact .inl ⟨_, _, .up hup, h⟩
      · rename_i hup
        dsimp only at h
        split at h
        · cases h
        · rename_i hshort
          split at h
          · rename_i m hm
            exact .inl ⟨_, _, .name (by simpa using hidle) hup (Nat.not_lt.1 hshort) hm, h⟩
          · rename_i hnone
            split at h
            · exact .inr ⟨by simpa using hidle, hup, hnone, (Except.ok.inj h).symm⟩
            · cases h

theorem follow_cons_eq_found_iff {piece : FileName} {rest : List FileName} {place' : Place}
    {node' : Node} :
    d.follow place node (piece :: rest) = .ok (.found place' node') ↔
      ∃ q m, d.Step place node piece q m ∧ d.follow q m rest = .ok (.found place' node') := by
  constructor
  · intro h
    rcases of_follow_cons_eq_ok h with h | ⟨-, -, -, h⟩
    · exact h
    · cases h
  · rintro ⟨q, m, hstep, h⟩
    rw [follow_of_step hstep, h]

theorem IsFileName.isIdle_eq_false {s : FileName} (hs : IsFileName s) : Path.isIdle s.chars = false := by
  have hidle := Path.isIdle_toList_eq_false hs.isName
  rwa [FileName.toList_spelled] at hidle

theorem IsFileName.bytes_ne_nil {s : FileName} (hs : IsFileName s) : s.bytes ≠ [] := by
  intro h
  have hidle := hs.isIdle_eq_false
  rw [FileName.chars, h] at hidle
  cases hidle

theorem IsFileName.ne_up {s : FileName} (hs : IsFileName s) : s.chars ≠ ['.', '.'] :=
  fun h => hs.isName.ne_up (congrArg String.ofList h)

theorem follow_name_of_none {s : FileName} (hs : IsFileName s) (h : d.node? (place ++ [s]) = none)
    (rest : List FileName) :
    d.follow place .directory (s :: rest) =
      if rest.all (·.bytes.isEmpty) then .ok (.vacant (place ++ [s]) (!rest.isEmpty))
      else .error .notFound := by
  rw [follow]
  simp only [Node.isDirectory, hs.isIdle_eq_false, if_neg hs.ne_up, if_neg (Nat.not_lt.2 hs.short), h]
  rfl

theorem Step.of_isFileName {s : FileName} (hs : IsFileName s) (h : d.node? (place ++ [s]) = some node) :
    d.Step place .directory s (place ++ [s]) node := .name hs.isIdle_eq_false hs.ne_up hs.short h

/-- What is found through pieces is found through the first of them and then through the others. -/
theorem follow_append_eq_found_iff {pieces more : List FileName} {place' : Place}
    {node' : Node} :
    d.follow place node (pieces ++ more) = .ok (.found place' node') ↔
      ∃ q m, d.follow place node pieces = .ok (.found q m) ∧
        d.follow q m more = .ok (.found place' node') := by
  induction pieces generalizing place node with
  | nil => simp [follow]
  | cons piece pieces ih =>
    simp only [List.cons_append, follow_cons_eq_found_iff, ih]
    constructor
    · rintro ⟨q, m, hstep, r, n, hr, h⟩
      exact ⟨r, n, ⟨q, m, hstep, hr⟩, h⟩
    · rintro ⟨r, n, ⟨q, m, hstep, hr⟩, h⟩
      exact ⟨q, m, hstep, r, n, hr, h⟩

/-- Behind pieces through which something is found, a path goes on from there. -/
theorem follow_append {pieces : List FileName} {place' : Place} {node' : Node}
    (h : d.follow place node pieces = .ok (.found place' node')) (more : List FileName) :
    d.follow place node (pieces ++ more) = d.follow place' node' more := by
  induction pieces generalizing place node with
  | nil =>
    cases h
    rfl
  | cons piece pieces ih =>
    obtain ⟨q, m, hstep, hrest⟩ := follow_cons_eq_found_iff.1 h
    rw [List.cons_append, follow_of_step hstep, ih hrest]

/-- What is found on a disk is found on one that has more on it. -/
theorem follow_eq_found_of_subset {d' : Disk}
    (hsub : ∀ q m, d.node? q = some m → d'.node? q = some m) {pieces : List FileName}
    {place' : Place} {node' : Node} (h : d.follow place node pieces = .ok (.found place' node')) :
    d'.follow place node pieces = .ok (.found place' node') := by
  induction pieces generalizing place node with
  | nil => exact h
  | cons piece pieces ih =>
    obtain ⟨q, m, hstep, hrest⟩ := follow_cons_eq_found_iff.1 h
    refine follow_cons_eq_found_iff.2 ⟨q, m, ?_, ih hrest⟩
    cases hstep with
    | idle hidle => exact .idle hidle
    | up hup => exact .up hup
    | name hidle hup hshort hnode => exact .name hidle hup hshort (hsub _ _ hnode)

/-! ### Names of places -/

theorem isName_spelled {piece : FileName} (hslash : '/' ∉ piece.chars)
    (hidle : Path.isIdle piece.chars = false) (hup : piece.chars ≠ ['.', '.']) : IsName piece.spelled :=
  Path.isName_of_innerComponent? hslash (by simp [Path.innerComponent?, hidle, hup, FileName.spelled])

theorem Step.forall_isName {piece : FileName} {place' : Place} {node' : Node}
    (h : d.Step place node piece place' node') (hslash : '/' ∉ piece.chars)
    (hplace : ∀ s ∈ place, IsName s.spelled) : ∀ s ∈ place', IsName s.spelled := by
  cases h with
  | idle => exact hplace
  | up => exact fun s hs => hplace s ((List.dropLast_prefix _).subset hs)
  | name hidle hup =>
    exact List.forall_mem_append.2
      ⟨hplace, List.forall_mem_singleton.2 (isName_spelled hslash hidle hup)⟩

theorem forall_isName_of_follow_eq_ok {pieces : List FileName}
    (hslash : ∀ piece ∈ pieces, '/' ∉ piece.chars) (hplace : ∀ s ∈ place, IsName s.spelled)
    {target : Target} (h : d.follow place node pieces = .ok target) :
    ∀ s ∈ target.place, IsName s.spelled := by
  induction pieces generalizing place node with
  | nil =>
    cases h
    exact hplace
  | cons piece pieces ih =>
    obtain ⟨hfirst, hrest⟩ := List.forall_mem_cons.1 hslash
    rcases of_follow_cons_eq_ok h with ⟨q, m, hstep, h⟩ | ⟨hidle, hup, -, rfl⟩
    · exact ih hrest (hstep.forall_isName hfirst hplace) h
    · exact List.forall_mem_append.2
        ⟨hplace, List.forall_mem_singleton.2 (isName_spelled hfirst hidle hup)⟩

theorem node?_eq_none_of_follow_eq_vacant {pieces : List FileName} {place' : Place}
    {asDirectory : Bool} (h : d.follow place node pieces = .ok (.vacant place' asDirectory)) :
    d.node? place' = none := by
  induction pieces generalizing place node with
  | nil => cases h
  | cons piece pieces ih =>
    rcases of_follow_cons_eq_ok h with ⟨q, m, -, h⟩ | ⟨-, -, hnone, htarget⟩
    · exact ih h
    · cases htarget
      exact hnone

/-! ### Paths -/

section
variable {p : RawPath}

theorem locate_eq_follow (hzero : 0 ∉ p.bytes) (hne : p.bytes ≠ []) (hlong : p.bytes.length < maxPath) :
    d.locate p = d.follow (if p.isAbsolute then [] else d.here) .directory p.pieces := by
  rw [locate, if_neg (by simpa using hzero), if_neg (by simpa using hne),
    if_neg (Nat.not_le.2 hlong)]

theorem of_locate_eq_ok {target : Target} (h : d.locate p = .ok target) :
    0 ∉ p.bytes ∧ p.bytes ≠ [] ∧ p.bytes.length < maxPath ∧
      d.follow (if p.isAbsolute then [] else d.here) .directory p.pieces = .ok target := by
  rw [locate] at h
  split at h
  · cases h
  · split at h
    · cases h
    · split at h
      · cases h
      · rename_i hzero hne hlong
        exact ⟨by simpa using hzero, by simpa using hne, Nat.not_le.1 hlong, h⟩

theorem lookUp_eq_ok_iff : d.lookUp p = .ok (place, node) ↔ d.locate p = .ok (.found place node) := by
  rw [lookUp, bind_eq_ok_iff]
  constructor
  · rintro ⟨target, htarget, h⟩
    cases target with
    | found q m =>
      cases h
      exact htarget
    | vacant q asDirectory => cases h
  · intro h
    exact ⟨_, h, rfl⟩

theorem forall_isName_of_locate_eq_ok (hhere : ∀ s ∈ d.here, IsName s.spelled) {target : Target}
    (h : d.locate p = .ok target) : ∀ s ∈ target.place, IsName s.spelled := by
  refine forall_isName_of_follow_eq_ok (fun _ hs => RawPath.slash_not_mem_of_mem_pieces hs) ?_
    (of_locate_eq_ok h).2.2.2
  split
  · simp
  · exact hhere

end

/-! ### Names below a path -/

section
variable {root : RawPath} {names : List FileName}

/-- Names below a path that leads to a directory lead down from there. -/
theorem locate_below (hroot : d.lookUp root = .ok (place, .directory)) (hne : names ≠ [])
    (hnames : ∀ s ∈ names, IsFileName s) (hlong : (root.below names).bytes.length < maxPath) :
    d.locate (root.below names) = d.follow place .directory names := by
  have hplain : ∀ s ∈ names, IsName s.spelled := fun s hs => (hnames s hs).isName
  obtain ⟨hzero, hbytes, -, hfollow⟩ := of_locate_eq_ok (lookUp_eq_ok_iff.1 hroot)
  obtain ⟨front, -, hpieces, hbelow⟩ := RawPath.exists_pieces_below hbytes
  have hfront : d.follow (if root.isAbsolute then [] else d.here) .directory front =
      .ok (.found place .directory) := by
    rcases hpieces with hpieces | hpieces
    · rw [← hpieces, hfollow]
    · -- the empty piece behind the last slash leads nowhere else
      rw [hpieces, follow_append_eq_found_iff] at hfollow
      obtain ⟨q, m, hfront, hend⟩ := hfollow
      obtain ⟨r, n, hstep, hnil⟩ := follow_cons_eq_found_iff.1 hend
      cases hnil
      cases hstep with
      | idle => exact hfront
      | up hup => cases hup
      | name hidle => cases hidle
  have hnozero := RawPath.zero_not_mem_below hne hplain hzero fun s hs => (hnames s hs).zero_not_mem
  rw [locate_eq_follow hnozero (RawPath.bytes_below_ne_nil hne hplain hbytes) hlong,
    RawPath.isAbsolute_below hne hplain hbytes, hbelow names hne hplain, follow_append hfront]

end

end Disk

end Scaffold
