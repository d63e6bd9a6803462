import Scaffold.Proofs.Disk.Growth

/-!
# Files and directories below a directory

Where nothing but directories stands on the way of some names, the directories for them are made
(`Disk.makeDirectories_below`), and a file is written in them (`Disk.writeBelow_eq_ok`). So are
several files of which none lies in another (`Disk.writeAll_eq_ok`).
-/

namespace Scaffold.Disk

open Scaffold.Path (IsName)

/-! ### Ways of directories -/

/-- Nothing but directories stands on the way of some names. -/
def IsOpen (d : Disk) (place : Place) (names : List FileName) : Prop :=
  ∀ way, way <+: names → way ≠ [] →
    d.node? (place ++ way) = none ∨ d.node? (place ++ way) = some .directory

/-- The way of some names is one of directories. -/
def IsPaved (d : Disk) (place : Place) (names : List FileName) : Prop :=
  ∀ way, way <+: names → way ≠ [] → d.node? (place ++ way) = some .directory

section
variable {d d' : Disk} {place : Place} {names : List FileName}

theorem IsOpen.of_prefix {front : List FileName} (h : d.IsOpen place names) (hfront : front <+: names) :
    d.IsOpen place front := fun way hway => h way (hway.trans hfront)

theorem isPaved_nil : d.IsPaved place [] :=
  fun _ hway hne => absurd (List.prefix_nil.1 hway) hne

theorem isPaved_cons_iff {s : FileName} : d.IsPaved place (s :: names) ↔
    d.node? (place ++ [s]) = some .directory ∧ d.IsPaved (place ++ [s]) names := by
  constructor
  · intro h
    refine ⟨h [s] ⟨names, rfl⟩ (by simp), fun way hway _ => ?_⟩
    rw [List.append_assoc]
    exact h (s :: way) (List.cons_prefix_cons.2 ⟨rfl, hway⟩) (by simp)
  · rintro ⟨hs, hnames⟩ way hway hne
    obtain ⟨r, way, rfl⟩ := List.exists_cons_of_ne_nil hne
    obtain ⟨rfl, hrest⟩ := List.cons_prefix_cons.1 hway
    by_cases hnil : way = []
    · exact hnil ▸ hs
    · have hdirectory := hnames way hrest hnil
      rwa [List.append_assoc] at hdirectory

theorem isPaved_append_singleton_iff {last : FileName} : d.IsPaved place (names ++ [last]) ↔
    d.IsPaved place names ∧ d.node? (place ++ (names ++ [last])) = some .directory := by
  constructor
  · intro h
    exact ⟨fun way hway => h way (hway.trans (List.prefix_append _ _)),
      h _ List.prefix_rfl (by simp)⟩
  · rintro ⟨hnames, hlast⟩ way hway hne
    rcases List.prefix_concat_iff.1 hway with rfl | hway
    · exact hlast
    · exact hnames way hway hne

theorem follow_of_isPaved (hnames : ∀ s ∈ names, IsFileName s) (hpaved : d.IsPaved place names)
    (rest : List FileName) : d.follow place .directory (names ++ rest) =
      d.follow (place ++ names) .directory rest := by
  induction names generalizing place with
  | nil => rw [List.append_nil, List.nil_append]
  | cons s names ih =>
    obtain ⟨hs, hnames⟩ := List.forall_mem_cons.1 hnames
    obtain ⟨hnode, hpaved⟩ := isPaved_cons_iff.1 hpaved
    rw [List.cons_append, follow_of_step (.of_isFileName hs hnode), ih hnames hpaved, List.append_assoc,
      List.singleton_append]

/-- Where a directory is missing on the way, nothing is found behind it. -/
theorem follow_of_not_isPaved (hnames : ∀ s ∈ names, IsFileName s) (hopen : d.IsOpen place names)
    (hpaved : ¬ d.IsPaved place names) {last : FileName} (hlast : last.bytes ≠ []) :
    d.follow place .directory (names ++ [last]) = .error .notFound := by
  induction names generalizing place with
  | nil => exact absurd isPaved_nil hpaved
  | cons s names ih =>
    obtain ⟨hs, hnames⟩ := List.forall_mem_cons.1 hnames
    rw [List.cons_append]
    rcases hopen [s] ⟨names, rfl⟩ (by simp) with hnone | hnode
    · rw [follow_name_of_none hs hnone, if_neg (by simp [hlast])]
    · rw [follow_of_step (.of_isFileName hs hnode)]
      refine ih hnames (fun way hway _ => ?_) fun h => hpaved (isPaved_cons_iff.2 ⟨hnode, h⟩)
      rw [List.append_assoc]
      exact hopen (s :: way) (List.cons_prefix_cons.2 ⟨rfl, hway⟩) (by simp)

end

section
variable {d : Disk} {root : RawPath} {place : Place} {front : List FileName} {last : FileName}
  (hroot : d.lookUp root = .ok (place, .directory))
  (hnames : ∀ s ∈ front ++ [last], IsFileName s)
  (hlong : (root.below (front ++ [last])).bytes.length < maxPath)
include hroot hnames hlong

theorem locate_below_of_isPaved (hpaved : d.IsPaved place front) :
    d.locate (root.below (front ++ [last])) =
      .ok (match d.node? (place ++ (front ++ [last])) with
        | some node => .found (place ++ (front ++ [last])) node
        | none => .vacant (place ++ (front ++ [last])) false) := by
  have hfront : ∀ s ∈ front, IsFileName s := fun s hs => hnames s (by simp [hs])
  have hlast := hnames last (by simp)
  rw [locate_below hroot (by simp) hnames hlong, follow_of_isPaved hfront hpaved,
    ← List.append_assoc]
  cases h : d.node? (place ++ front ++ [last]) with
  | some node => exact follow_of_step (.of_isFileName hlast h) []
  | none => exact follow_name_of_none hlast h []

theorem locate_below_of_not_isPaved (hopen : d.IsOpen place front) (hpaved : ¬ d.IsPaved place front) :
    d.locate (root.below (front ++ [last])) = .error .notFound := by
  have hfront : ∀ s ∈ front, IsFileName s := fun s hs => hnames s (by simp [hs])
  rw [locate_below hroot (by simp) hnames hlong,
    follow_of_not_isPaved hfront hopen hpaved (hnames last (by simp)).bytes_ne_nil]

end

/-! ### Making directories -/

/-- The directories on the way of some names. -/
def OnWay (place : Place) (names : List FileName) (q : Place) (node : Node) : Prop :=
  node = .directory ∧ ∃ way, way ≠ [] ∧ way <+: names ∧ q = place ++ way

theorem OnWay.of_prefix {place : Place} {front names : List FileName} (h : front <+: names) {q : Place}
    {node : Node} (hq : OnWay place front q node) : OnWay place names q node := by
  obtain ⟨hnode, way, hne, hway, heq⟩ := hq
  exact ⟨hnode, way, hne, hway.trans h, heq⟩

theorem not_onWay_append {place : Place} {front : List FileName} {last : FileName} {node : Node} :
    ¬ OnWay place front (place ++ (front ++ [last])) node := by
  rintro ⟨-, way, -, hway, heq⟩
  have hlength := hway.length_le
  rw [← List.append_cancel_left heq, List.length_append, List.length_singleton] at hlength
  omega

theorem forall_isName_append {place : Place} {names : List FileName}
    (hplace : ∀ s ∈ place, IsName s.spelled) (hnames : ∀ s ∈ names, IsFileName s) :
    ∀ s ∈ place ++ names, IsName s.spelled :=
  List.forall_mem_append.2 ⟨hplace, fun s hs => (hnames s hs).isName⟩

/-- Where the directories before it are made, the way to one more stays open. -/
theorem IsOpen.of_grows {d d' : Disk} {place : Place} {front : List FileName} {last : FileName}
    (h : d.IsOpen place (front ++ [last])) (hplace : ∀ s ∈ place, IsName s.spelled)
    (hnames : ∀ s ∈ front ++ [last], IsFileName s) (hgrows : Grows (OnWay place front) d d')
    (hpaved : d'.IsPaved place front) : d'.IsOpen place (front ++ [last]) := by
  intro way hway hne
  rcases List.prefix_concat_iff.1 hway with rfl | hway
  · refine (h _ List.prefix_rfl hne).imp (fun hnone => ?_) hgrows.node?_eq_some
    exact hgrows.node?_eq_none (forall_isName_append hplace hnames) (fun _ => not_onWay_append)
      hnone
  · exact .inr (hpaved way hway hne)

theorem makeEach_append (d : Disk) (ps qs : List RawPath) :
    d.makeEach (ps ++ qs) = d.makeEach ps >>= fun d => d.makeEach qs := by
  induction ps generalizing d with
  | nil => rfl
  | cons p ps ih =>
    rw [List.cons_append, makeEach, makeEach]
    cases d.makeDirectory p with
    | ok d' => exact ih d'
    | error e =>
      simp only []
      split
      · exact ih d
      · rfl

section
variable {root : RawPath} {place : Place} (hplace : ∀ s ∈ place, IsName s.spelled)
include hplace

section
variable {d : Disk} {front : List FileName} {last : FileName}
  (hroot : d.lookUp root = .ok (place, .directory))
  (hnames : ∀ s ∈ front ++ [last], IsFileName s)
  (hlong : (root.below (front ++ [last])).bytes.length < maxPath)
  (hpaved : d.IsPaved place front)
include hroot hnames hlong hpaved

/-- Behind directories one more is made, unless it is there. -/
theorem makeDirectory_below (hopen : d.IsOpen place (front ++ [last])) :
    (∃ d', d.makeDirectory (root.below (front ++ [last])) = .ok d' ∧
        Grows (OnWay place (front ++ [last])) d d' ∧ d'.IsPaved place (front ++ [last])) ∨
      d.makeDirectory (root.below (front ++ [last])) = .error .exists ∧
        d.isDirectory (root.below (front ++ [last])) = true ∧ d.IsPaved place (front ++ [last]) := by
  have hlocate := locate_below_of_isPaved hroot hnames hlong hpaved
  rcases hopen _ List.prefix_rfl (by simp) with hnone | hnode
  · left
    rw [hnone] at hlocate
    have hgrows : Grows (OnWay place (front ++ [last])) d
        (d.put (place ++ (front ++ [last])) .directory) :=
      .one (forall_isName_append hplace hnames) hnone ⟨rfl, _, by simp, List.prefix_rfl, rfl⟩
    refine ⟨_, by rw [makeDirectory, hlocate]; rfl, hgrows, isPaved_append_singleton_iff.2 ⟨?_, ?_⟩⟩
    · exact fun way hway hne => hgrows.node?_eq_some (hpaved way hway hne)
    · exact node?_put_self (by simp)
  · right
    rw [hnode] at hlocate
    refine ⟨by rw [makeDirectory, hlocate]; rfl, ?_, isPaved_append_singleton_iff.2 ⟨hpaved, hnode⟩⟩
    rw [isDirectory, lookUp_eq_ok_iff.2 hlocate]
    rfl

theorem makeEach_below (hopen : d.IsOpen place (front ++ [last])) :
    ∃ d', d.makeEach [root.below (front ++ [last])] = .ok d' ∧
      Grows (OnWay place (front ++ [last])) d d' ∧ d'.IsPaved place (front ++ [last]) := by
  rcases makeDirectory_below hplace hroot hnames hlong hpaved hopen with
    ⟨d', hmake, hgrows, hpaved'⟩ | ⟨hmake, hdirectory, hpaved'⟩
  · exact ⟨d', by rw [makeEach, hmake]; rfl, hgrows, hpaved'⟩
  · refine ⟨d, ?_, .refl, hpaved'⟩
    simp [makeEach, hmake, hdirectory]

end

/-- On the way up to the first directory that can be made, those that cannot be made yet are left
for the way down. -/
theorem makeNearest_below {d : Disk} {names : List FileName}
    (hroot : d.lookUp root = .ok (place, .directory)) (hne : names ≠ [])
    (hnames : ∀ s ∈ names, IsFileName s)
    (hlong : (root.below names).bytes.length < maxPath) (hopen : d.IsOpen place names)
    {fuel : Nat} (hfuel : names.length ≤ fuel + 1) (left : List RawPath) :
    ∃ d₁ made d₂,
      d.makeNearest (root.below names ::
          (Path.ancestors.upward fuel (root.below names).spelled).map .ofSpelled) left =
        .ok (d₁, made ++ left) ∧
      d₁.makeEach made = .ok d₂ ∧ Grows (OnWay place names) d d₂ ∧ d₂.IsPaved place names := by
  have hbytes : root.bytes ≠ [] := (of_locate_eq_ok (lookUp_eq_ok_iff.1 hroot)).2.1
  -- upward the names go from the last on; one whose own directory is missing waits in `left`
  induction names using List.reverseRecOn generalizing fuel left with
  | nil => exact absurd rfl hne
  | append_singleton front last ih =>
    have hplain : ∀ s ∈ front ++ [last], IsName s.spelled := fun s hs => (hnames s hs).isName
    have hgo : ((root.below (front ++ [last])).bytes.isEmpty ||
        (root.below (front ++ [last])).parent?.isNone) = false := by
      have hfilled : (root.below (front ++ [last])).bytes ≠ [] :=
        RawPath.bytes_below_ne_nil (by simp) hplain hbytes
      rw [Bool.or_eq_false_iff, ← Option.not_isSome, RawPath.isSome_parent?_below hplain hbytes]
      exact ⟨by simpa using hfilled, rfl⟩
    have hfront : d.IsOpen place front := hopen.of_prefix (List.prefix_append _ _)
    by_cases hpaved : d.IsPaved place front
    · rcases makeDirectory_below hplace hroot hnames hlong hpaved hopen with
        ⟨d', hmake, hgrows, hpaved'⟩ | ⟨hmake, hdirectory, hpaved'⟩
      · exact ⟨d', [], d', by simp [makeNearest, hgo, hmake], rfl, hgrows, hpaved'⟩
      · exact ⟨d, [], d, by simp [makeNearest, hgo, hmake, hdirectory], rfl, .refl, hpaved'⟩
    · have hne' : front ≠ [] := by
        rintro rfl
        exact hpaved isPaved_nil
      obtain ⟨fuel, rfl⟩ : ∃ more, fuel = more + 1 := by
        have := List.length_pos_iff.2 hne'
        rw [List.length_append, List.length_singleton] at hfuel
        exact ⟨fuel - 1, by omega⟩
      have hfuel' : front.length ≤ fuel + 1 := by
        rw [List.length_append, List.length_singleton] at hfuel
        omega
      have hlong' : (root.below front).bytes.length < maxPath :=
        Nat.lt_trans (RawPath.length_below_lt hplain hne') hlong
      have hmake : d.makeDirectory (root.below (front ++ [last])) = .error .notFound := by
        rw [makeDirectory, locate_below_of_not_isPaved hroot hnames hlong hfront hpaved]
        rfl
      obtain ⟨d₁, made, d₂, hnearest, heach, hgrows, hpaved'⟩ :=
        ih hne' (fun s hs => hnames s (by simp [hs])) hlong' hfront hfuel'
          (root.below (front ++ [last]) :: left)
      have hopen' : d₂.IsOpen place (front ++ [last]) :=
        hopen.of_grows hplace hnames hgrows hpaved'
      obtain ⟨d₃, hlast, hgrows', hpaved''⟩ :=
        makeEach_below hplace (hgrows.lookUp_eq_ok hroot) hnames hlong hpaved' hopen'
      refine ⟨d₁, made ++ [root.below (front ++ [last])], d₃, ?_, ?_, ?_, hpaved''⟩
      · rw [makeNearest, hgo, hmake]
        simpa [Path.ancestors.upward, RawPath.parent?_spelled_below hplain hbytes hne'] using hnearest
      · rw [makeEach_append, heach]
        exact hlast
      · exact (hgrows.mono fun _ _ => OnWay.of_prefix (List.prefix_append _ _)).trans hgrows'

/-- A directory is made with those it lies in. -/
theorem makeDirectories_below {d : Disk} {names : List FileName}
    (hroot : d.lookUp root = .ok (place, .directory)) (hne : names ≠ [])
    (hnames : ∀ s ∈ names, IsFileName s)
    (hlong : (root.below names).bytes.length < maxPath) (hopen : d.IsOpen place names) :
    ∃ d', d.makeDirectories (root.below names) = .ok d' ∧ Grows (OnWay place names) d d' ∧
      d'.IsPaved place names := by
  have hfuel : names.length ≤ (root.below names).spelled.chars.length + 1 := by
    have hbytes : root.bytes ≠ [] := (of_locate_eq_ok (lookUp_eq_ok_iff.1 hroot)).2.1
    obtain ⟨front, -, -, hpieces⟩ := RawPath.exists_pieces_below hbytes
    have hlength := Path.length_segments_le (root.below names).spelled.chars
    rw [← RawPath.chars_pieces, hpieces names hne fun s hs => (hnames s hs).isName, List.length_map,
      List.length_append] at hlength
    omega
  obtain ⟨d₁, made, d₂, hnearest, heach, hgrows, hpaved⟩ :=
    makeNearest_below hplace hroot hne hnames hlong hopen hfuel []
  refine ⟨d₂, ?_, hgrows, hpaved⟩
  rw [makeDirectories, RawPath.ancestors, Path.ancestors, List.map_cons, RawPath.ofSpelled_spelled,
    hnearest, List.append_nil]
  exact heach

end

/-! ### Writing files -/

/-- Makes the directories of some names below a path, of which the path itself is there already. -/
def makeWay (d : Disk) (root : RawPath) (names : List FileName) : Except DiskError Disk :=
  if names.isEmpty then .ok d else d.makeDirectories (root.below names)

/-- Writes a file below a path, in directories that are made for it. -/
def writeBelow (d : Disk) (root : RawPath) (names : List FileName) (bytes : ByteArray) :
    Except DiskError Disk := do
  let d ← d.makeWay root names.dropLast
  d.writeBytes (root.below names) bytes

/-- There is room for a file: nothing but directories stands on its way and nothing in its place. -/
def HasRoom (d : Disk) (place : Place) (names : List FileName) : Prop :=
  d.IsOpen place names.dropLast ∧ d.node? (place ++ names) = none

/-- The nodes that a file brings along. -/
def Planted (place : Place) (names : List FileName) (bytes : ByteArray) (q : Place)
    (node : Node) : Prop :=
  OnWay place names.dropLast q node ∨ q = place ++ names ∧ node = .file bytes

section
variable {d : Disk} {place : Place} {names : List FileName} (hplace : ∀ s ∈ place, IsName s.spelled)
  (hnames : ∀ s ∈ names, IsFileName s)
include hplace hnames

/-- Where there is room for it, a file is written. -/
theorem writeBelow_eq_ok {root : RawPath} (hroot : d.lookUp root = .ok (place, .directory))
    (hne : names ≠ []) (hlong : (root.below names).bytes.length < maxPath)
    (hroom : d.HasRoom place names) (bytes : ByteArray) :
    ∃ d', d.writeBelow root names bytes = .ok d' ∧ Grows (Planted place names bytes) d d' ∧
      d'.node? (place ++ names) = some (.file bytes) := by
  obtain ⟨hopen, hnone⟩ := hroom
  obtain ⟨front, last, rfl⟩ := (List.eq_nil_or_concat names).resolve_left hne
  rw [List.concat_eq_append] at hnames hlong hopen hnone ⊢
  rw [List.dropLast_concat] at hopen
  have hall := forall_isName_append hplace hnames
  obtain ⟨d', hmake, hgrows, hpaved⟩ : ∃ d', d.makeWay root front = .ok d' ∧
      Grows (OnWay place front) d d' ∧ d'.IsPaved place front := by
    by_cases hnil : front = []
    · subst hnil
      exact ⟨d, rfl, .refl, isPaved_nil⟩
    · rw [makeWay, if_neg (by simpa using hnil)]
      have hlong' : (root.below front).bytes.length < maxPath :=
        Nat.lt_trans (RawPath.length_below_lt (fun s hs => (hnames s hs).isName) hnil) hlong
      exact makeDirectories_below hplace hroot hnil (fun s hs => hnames s (by simp [hs])) hlong' hopen
  have hnone' := hgrows.node?_eq_none hall (fun _ => not_onWay_append) hnone
  have hlocate := locate_below_of_isPaved (hgrows.lookUp_eq_ok hroot) hnames hlong hpaved
  rw [hnone'] at hlocate
  refine ⟨d'.put (place ++ (front ++ [last])) (.file bytes), ?_, ?_, node?_put_self (by simp)⟩
  · rw [writeBelow, List.dropLast_concat, hmake, ok_bind, writeBytes, hlocate]
    rfl
  · refine (hgrows.mono fun q node hq => .inl ?_).put hall hnone' (.inr ⟨rfl, rfl⟩)
    rwa [List.dropLast_concat]

/-- A file leaves room for another, unless one of them lies in the other. -/
theorem HasRoom.of_grows {d' : Disk} {names' : List FileName} {bytes : ByteArray}
    (hroom : d.HasRoom place names) (hgrows : Grows (Planted place names' bytes) d d')
    (hapart : ¬ names' <+: names) (hapart' : ¬ names <+: names') : d'.HasRoom place names := by
  have hfront : names.dropLast <+: names := List.dropLast_prefix _
  constructor
  · intro way hway hne
    have hall : ∀ s ∈ place ++ way, IsName s.spelled := forall_isName_append hplace fun s hs =>
      hnames s ((hway.trans hfront).subset hs)
    cases hnode : d'.node? (place ++ way) with
    | none => exact .inl rfl
    | some node =>
      right
      -- the one new node that is no directory would have to lie on the way
      rcases hgrows.of_node?_eq_some hall hnode with hold | hnew | ⟨heq, -⟩
      · rcases hroom.1 way hway hne with hnone | hdirectory
        · cases hnone.symm.trans hold
        · rw [← hold, hdirectory]
      · rw [hnew.1]
      · exact absurd (List.append_cancel_left heq ▸ hway.trans hfront) hapart
  · refine Option.eq_none_iff_forall_ne_some.2 fun node hnode => ?_
    rcases hgrows.of_node?_eq_some (forall_isName_append hplace hnames) hnode with
      hold | ⟨-, way, -, hway, heq⟩ | ⟨heq, -⟩
    · cases hroom.2.symm.trans hold
    · rw [← List.append_cancel_left heq] at hway
      exact hapart' (hway.trans (List.dropLast_prefix _))
    · exact hapart (List.append_cancel_left heq ▸ List.prefix_rfl)

end

/-- Writes files below a path, one after the other. -/
def writeAll (d : Disk) (root : RawPath) (files : List (List FileName × ByteArray)) :
    Except DiskError Disk :=
  files.foldlM (fun d f => d.writeBelow root f.1 f.2) d

/-- Files of which none lies in another are written where there is room for them all. -/
theorem writeAll_eq_ok {root : RawPath} {place : Place} (hplace : ∀ s ∈ place, IsName s.spelled)
    {files : List (List FileName × ByteArray)}
    (hapart : files.Pairwise fun f g => ¬ f.1 <+: g.1 ∧ ¬ g.1 <+: f.1)
    (hne : ∀ f ∈ files, f.1 ≠ []) (hnames : ∀ f ∈ files, ∀ s ∈ f.1, IsFileName s)
    (hlong : ∀ f ∈ files, (root.below f.1).bytes.length < maxPath) {d : Disk}
    (hroot : d.lookUp root = .ok (place, .directory)) (hroom : ∀ f ∈ files, d.HasRoom place f.1) :
    ∃ d', d.writeAll root files = .ok d' ∧
      Grows (fun q node => ∃ f ∈ files, Planted place f.1 f.2 q node) d d' ∧
      ∀ f ∈ files, d'.node? (place ++ f.1) = some (.file f.2) := by
  induction files generalizing d with
  | nil => exact ⟨d, rfl, .refl, by simp⟩
  | cons f files ih =>
    obtain ⟨hf, hapart⟩ := List.pairwise_cons.1 hapart
    rw [List.forall_mem_cons] at hne hnames hlong hroom
    obtain ⟨d₁, hwrite, hgrows, hnode⟩ :=
      writeBelow_eq_ok hplace hnames.1 hroot hne.1 hlong.1 hroom.1 f.2
    obtain ⟨d₂, hrest, hgrows', hnodes⟩ := ih hapart hne.2 hnames.2 hlong.2
      (hgrows.lookUp_eq_ok hroot) fun g hg =>
        (hroom.2 g hg).of_grows hplace (hnames.2 g hg) hgrows (hf g hg).1 (hf g hg).2
    refine ⟨d₂, ?_, ?_, List.forall_mem_cons.2 ⟨hgrows'.node?_eq_some hnode, hnodes⟩⟩
    · rw [writeAll, List.foldlM_cons, hwrite]
      exact hrest
    · refine (hgrows.mono fun q node hq => ⟨f, by simp, hq⟩).trans (hgrows'.mono ?_)
      rintro q node ⟨g, hg, hq⟩
      exact ⟨g, by simp [hg], hq⟩

end Scaffold.Disk
