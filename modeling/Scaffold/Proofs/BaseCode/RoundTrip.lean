import Scaffold.Disk.Store
import Scaffold.Proofs.Assembly.Display
import Scaffold.Proofs.BaseCode.Directory
import Scaffold.Proofs.Disk.Making

/-!
# Base code written to a directory

The files of a base code that a disk can store are written to an empty directory and loaded
from it, each under its path as that is shown. The base code comes back exactly if its paths
are text, and what is loaded stays what it is where links, directories and files that are no
text are added (`RawBaseCode.exists_writeAll_comesBack_iff`).
-/

namespace Scaffold

open Scaffold.Path (IsName)

/-- The text of a node, if it is a file that has one. -/
def Node.text? : Node → Option String
  | file bytes => String.fromUTF8? bytes
  | _ => none

/-- A path without backslashes is the path in the base code. -/
theorem FoundFile.name_eq {f : FoundFile} (h : '\\' ∉ f.path.toList) : f.name = f.path := by
  have hmap : ∀ c ∈ f.path.toList, (if c = '\\' then '/' else c) = id c := by
    intro c hc
    exact if_neg (ne_of_mem_of_not_mem hc h)
  rw [FoundFile.name, List.map_congr_left hmap, List.map_id, String.ofList_toList]

/-! ### Texts of a directory -/

namespace Disk

/-- The text of what stands below a place, under the path by which a base code knows it. -/
def textBelow? (place : Place) (x : Place × Node) : Option (Path × String) :=
  x.2.text?.map fun text =>
    (⟨FoundFile.name ⟨(RawPath.ofNames (x.1.drop place.length)).shown, some text⟩⟩, text)

/-- A directory of a disk has the files of a list in it, and nothing else that is text. -/
structure Holds (d : Disk) (place : Place) (files : List (List FileName × ByteArray)) : Prop where
  node : ∀ f ∈ files, d.node? (place ++ f.1) = some (.file f.2)
  only : ∀ x ∈ d.below place, x.2.text? = none ∨ ∃ f ∈ files, x = (place ++ f.1, .file f.2)

section
variable {d : Disk} {root : RawPath} {place : Place}
  (hroot : d.lookUp root = .ok (place, .directory))
include hroot

theorem exists_found? : ∃ found, d.found? root = some found ∧
    BaseCode.texts found = (d.below place).filterMap (textBelow? place) := by
  refine ⟨(d.filesBelow place).map StoredFile.found, by rw [found?, hroot], ?_⟩
  rw [BaseCode.texts, filesBelow, List.filterMap_map, List.filterMap_filterMap]
  refine List.filterMap_congr fun x _ => ?_
  obtain ⟨q, node⟩ := x
  cases node with
  | file bytes => rfl
  | directory | other => rfl

/-- What is loaded from a directory stays what it is where nothing is added that is text. -/
theorem baseCode_eq_of_grows {d' : Disk} (h : Grows (fun _ node => node.text? = none) d d') :
    d'.baseCode root = d.baseCode root := by
  obtain ⟨found, hfound, htexts⟩ := exists_found? hroot
  obtain ⟨found', hfound', htexts'⟩ := exists_found? (h.lookUp_eq_ok hroot)
  have hbelow : (d'.below place).filterMap (textBelow? place) =
      (d.below place).filterMap (textBelow? place) :=
    h.filterMap_below (fun _ node hnone => by rw [textBelow?, hnone, Option.map_none]) place
  rw [baseCode, baseCode, hfound, hfound']
  exact BaseCode.ofDirectory_congr _ (htexts'.trans (hbelow.trans htexts.symm))

end

end Disk

/-! ### Base code as the system has it -/

namespace ContainedPath

/-- The path that a contained path is to the system. -/
def raw (p : ContainedPath) : ContainedRawPath where
  path := .ofText p.text
  contained := (RawPath.escape?_ofText p.text).trans p.contained

theorem components_raw (p : ContainedPath) :
    p.raw.path.components = p.path.components.map RawPath.spelledComponent :=
  RawPath.components_ofText p.text

theorem components_raw_eq_iff {p q : ContainedPath} :
    p.raw.path.components = q.raw.path.components ↔ p.path.key = q.path.key := by
  rw [components_raw, components_raw, Path.key_eq_iff]
  exact (List.map_injective_iff.2 RawPath.spelledComponent_injective).eq_iff

end ContainedPath

/-- A base code at the paths that its own are to the system. -/
def BaseCode.raw (base : BaseCode) : RawBaseCode where
  files := base.toList.map fun e => (e.1.raw, e.2)
  distinct := by
    refine List.pairwise_map.2 (base.pairwise_toList.imp fun {e f} hlt heq => ?_)
    exact List.lt_irrefl _ (ContainedPath.components_raw_eq_iff.1 heq ▸ hlt)

theorem BaseCode.mem_files_raw {base : BaseCode} {x : List Path.Component × String} :
    x ∈ base.raw.files.map (fun e => (e.1.path.components, e.2)) ↔
      ∃ e ∈ base.files.entries, x = (e.1.components.map RawPath.spelledComponent, e.2) := by
  have hfiles : base.raw.files = base.toList.map fun e => (e.1.raw, e.2) := rfl
  rw [hfiles, toList, List.map_map, List.map_pmap, List.mem_pmap]
  constructor
  · rintro ⟨e, he, rfl⟩
    exact ⟨e, he, Prod.ext (ContainedPath.components_raw _) rfl⟩
  · rintro ⟨e, he, rfl⟩
    exact ⟨e, he, Prod.ext (ContainedPath.components_raw _) rfl⟩

/-! ### Base code that can be stored -/

/-- A path that a disk can store a file at below another, and that comes back from there. -/
structure ContainedRawPath.Fits (p : ContainedRawPath) (root : RawPath) : Prop where
  named : p.path.names ≠ []
  /-- It does not start with a dot alone. -/
  here_not_mem : .here ∉ p.path.components
  plain : ∀ s ∈ p.path.names, RawPath.byte '\\' ∉ s.bytes
  /-- The disk takes the names. -/
  names : ∀ s ∈ p.path.names, 0 ∉ s.bytes ∧ s.bytes.length ≤ Disk.maxName
  /-- The disk takes the path. -/
  short : (root.below p.path.names).bytes.length < Disk.maxPath

namespace ContainedRawPath.Fits

variable {p : ContainedRawPath} {root : RawPath} (h : p.Fits root)
include h

theorem isFileName : ∀ s ∈ p.path.names, Disk.IsFileName s := fun s hs =>
  ⟨RawPath.isName_of_mem_names hs, (h.names s hs).1, (h.names s hs).2⟩

theorem components_eq : p.path.components = p.path.names.map fun s => .name s.spelled :=
  RawPath.components_eq_map_names p.contained h.here_not_mem

/-- A file is loaded under its path as that is shown. -/
theorem name_shown (text? : Option String) :
    FoundFile.name ⟨(RawPath.ofNames p.path.names).shown, text?⟩ = p.display := by
  rw [FoundFile.name_eq ?_]
  · exact (RawPath.shown_ofNames _).trans
      (RawPath.display_eq_intercalate p.contained h.here_not_mem).symm
  · intro hmem
    rw [RawPath.shown, Text.shown, String.toList_ofList] at hmem
    obtain ⟨b, hb, hchar⟩ := Text.exists_byte_of_mem_decodeFrom (by decide) (by simp) hmem
    obtain rfl : b = RawPath.byte '\\' := by rw [← hchar]; exact (RawPath.byte_character b).symm
    rcases RawPath.mem_bytes_ofNames hb with hslash | ⟨s, hs, hb⟩
    · exact absurd hslash (by decide)
    · exact h.plain s hs hb

end ContainedRawPath.Fits

namespace RawBaseCode

theorem nodup_map (base : RawBaseCode) :
    (base.files.map fun e => (e.1.path.components, e.2)).Nodup :=
  List.pairwise_map.2 (base.distinct.imp fun hne heq => hne (congrArg Prod.fst heq))

theorem eq_of_components_eq {base : RawBaseCode} {e f : ContainedRawPath × String}
    (he : e ∈ base.files) (hf : f ∈ base.files) (h : e.1.path.components = f.1.path.components) :
    e = f := by
  have hnodup : (base.files.map fun e => e.1.path.components).Nodup :=
    List.pairwise_map.2 base.distinct
  exact List.inj_on_of_nodup_map hnodup he hf h

/-- A base code that a disk can store below a path. -/
structure Storable (base : RawBaseCode) (root : RawPath) : Prop where
  /-- The files that take part in the generation are there. -/
  complete : ∀ file : BaseFile, ∃ e ∈ base.files, e.1.path.same (.ofText file.path) = true
  fits : ∀ e ∈ base.files, e.1.Fits root
  /-- No file lies in another. -/
  apart : ∀ e ∈ base.files, ∀ f ∈ base.files,
    e.1.path.components <+: f.1.path.components → e.1.path.components = f.1.path.components

/-- The files with the names of their paths and their bytes. -/
def written (base : RawBaseCode) : List (List FileName × ByteArray) :=
  base.files.map fun e => (e.1.path.names, e.2.toUTF8)

/-- A directory of a disk is loaded as this base code. -/
def ComesBack (base : RawBaseCode) (d : Disk) (root : RawPath) : Prop :=
  ∃ base', d.baseCode root = .ok base' ∧ base'.raw.Same base

namespace Storable

variable {base : RawBaseCode} {root : RawPath} (h : base.Storable root)
include h

/-! ### Loading -/

section
variable {d : Disk} {place : Place} (hplace : ∀ s ∈ place, IsName s.spelled)
  (hholds : d.Holds place base.written)
include hplace hholds

/-- Where the files of a base code stand in a directory, and nothing else that is text, they are the
texts of the directory. -/
theorem mem_filterMap_below {x : Path × String} :
    x ∈ (d.below place).filterMap (Disk.textBelow? place) ↔
      ∃ e ∈ base.files, x = (⟨e.1.display⟩, e.2) := by
  have htext (e : ContainedRawPath × String) (he : e ∈ base.files) :
      Disk.textBelow? place (place ++ e.1.path.names, .file e.2.toUTF8) =
        some (⟨e.1.display⟩, e.2) := by
    have hdecode : String.fromUTF8? e.2.toUTF8 = some e.2 := dif_pos e.2.isValidUTF8
    rw [Disk.textBelow?, Node.text?, hdecode, Option.map_some, List.drop_left, (h.fits e he).name_shown]
  rw [List.mem_filterMap]
  constructor
  · rintro ⟨y, hy, hx⟩
    rcases hholds.only y hy with hnone | ⟨f, hf, rfl⟩
    · rw [Disk.textBelow?, hnone] at hx
      cases hx
    · obtain ⟨e, he, rfl⟩ := List.mem_map.1 hf
      exact ⟨e, he, Option.some.inj (hx.symm.trans (htext e he))⟩
  · rintro ⟨e, he, rfl⟩
    have hbelow := Disk.mem_below_of_node? hplace (fun _ => RawPath.isName_of_mem_names)
      (h.fits e he).named (hholds.node _ (List.mem_map_of_mem he))
    exact ⟨_, hbelow, htext e he⟩

section
variable (hroot : d.lookUp root = .ok (place, .directory))
include hroot

/-- What is loaded has the files under their paths as these are shown. -/
theorem exists_baseCode : ∃ base' es, d.baseCode root = .ok base' ∧ base'.files = .ofList es ∧
    ∀ x, x ∈ es ↔ ∃ e ∈ base.files, x = (⟨e.1.display⟩, e.2) := by
  obtain ⟨found, hfound, htexts⟩ := Disk.exists_found? hroot
  have hmem (x : Path × String) : x ∈ BaseCode.texts found ↔
      ∃ e ∈ base.files, x = (⟨e.1.display⟩, e.2) := by
    rw [htexts]
    exact h.mem_filterMap_below hplace hholds
  have hcontained : ∀ x ∈ BaseCode.texts found, x.1.escape? = none := by
    intro x hx
    obtain ⟨e, he, rfl⟩ := (hmem x).1 hx
    exact (RawPath.escape?_ofText _).symm.trans e.1.escape?_display
  have hall (file : BaseFile) :
      ∃ x ∈ BaseCode.texts found, x.1.key = Path.key ⟨file.path⟩ := by
    obtain ⟨e, he, hsame⟩ := h.complete file
    refine ⟨_, (hmem _).2 ⟨e, he, rfl⟩, Path.key_eq_iff.2 ?_⟩
    rw [e.1.components_display, RawPath.same_iff.1 hsame, RawPath.components_ofText]
    exact RawPath.map_shownComponent_map_spelledComponent _
  obtain ⟨base', hbase'⟩ := BaseCode.exists_ofDirectory_eq_ok ⟨root.shown⟩ hcontained hall
  refine ⟨base', BaseCode.texts found, ?_, (BaseCode.ofDirectory_eq_ok_iff.1 hbase').2.2, hmem⟩
  rw [Disk.baseCode, hfound, hbase']

/-- A base code comes back exactly if its paths are text. -/
theorem comesBack_iff : base.ComesBack d root ↔ ∀ e ∈ base.files, e.1.path.IsText := by
  constructor
  · rintro ⟨base', -, hsame⟩ e he
    obtain ⟨f, -, heq⟩ := BaseCode.mem_files_raw.1 (hsame.mem_iff.2 (List.mem_map_of_mem he))
    have htext : (RawPath.ofText f.1.text).IsText := ⟨_, rfl⟩
    refine htext.of_components_eq ?_
    rw [RawPath.components_ofText]
    exact congrArg Prod.fst heq
  · intro htext
    obtain ⟨base', es, hbase', hfiles, hmem⟩ := h.exists_baseCode hplace hholds hroot
    have hcomponents (e : ContainedRawPath × String) (he : e ∈ base.files) {p : Path}
        (hp : Path.key ⟨e.1.display⟩ = p.key) :
        p.components.map RawPath.spelledComponent = e.1.path.components := by
      rw [← Path.key_eq_iff.1 hp, e.1.components_display]
      exact RawPath.isText_iff_map_components.1 (htext e he)
    have hvalues : ∀ x ∈ es, ∀ y ∈ es, x.1.key = y.1.key → x.2 = y.2 := by
      intro x hx y hy hkey
      obtain ⟨e, he, rfl⟩ := (hmem x).1 hx
      obtain ⟨f, hf, rfl⟩ := (hmem y).1 hy
      rw [eq_of_components_eq he hf ((hcomponents e he rfl).symm.trans (hcomponents f hf hkey.symm))]
    refine ⟨base', hbase', ?_⟩
    refine (List.perm_ext_iff_of_nodup base'.raw.nodup_map base.nodup_map).2 fun x => ?_
    rw [BaseCode.mem_files_raw, List.mem_map]
    constructor
    · rintro ⟨f, hf, rfl⟩
      have hfind := PathMap.find?_of_mem hf rfl
      rw [hfiles, PathMap.find?_ofList_eq_some_iff hvalues] at hfind
      obtain ⟨y, hy, hkey, hcontent⟩ := hfind
      obtain ⟨e, he, rfl⟩ := (hmem y).1 hy
      exact ⟨e, he, Prod.ext (hcomponents e he hkey).symm hcontent⟩
    · rintro ⟨e, he, rfl⟩
      have hfind : base'.files.find? ⟨e.1.display⟩ = some e.2 := by
        rw [hfiles, PathMap.find?_ofList_eq_some_iff hvalues]
        exact ⟨_, (hmem _).2 ⟨e, he, rfl⟩, rfl, rfl⟩
      obtain ⟨f, hf, hkey, hcontent⟩ := PathMap.find?_eq_some_iff.1 hfind
      exact ⟨f, hf, Prod.ext (hcomponents e he hkey.symm).symm hcontent.symm⟩

end

end

/-! ### Writing -/

/-- No file of a base code lies in another. -/
theorem pairwise_written : base.written.Pairwise fun f g => ¬ f.1 <+: g.1 ∧ ¬ g.1 <+: f.1 := by
  have hapart (e : ContainedRawPath × String) (he : e ∈ base.files) (f : ContainedRawPath × String)
      (hf : f ∈ base.files) (hp : e.1.path.names <+: f.1.path.names) :
      e.1.path.components = f.1.path.components := by
    refine h.apart e he f hf ?_
    rw [(h.fits e he).components_eq, (h.fits f hf).components_eq]
    exact hp.map _
  rw [written, List.pairwise_map]
  refine base.distinct.imp_of_mem fun he hf hne => ⟨fun hp => ?_, fun hp => ?_⟩
  · exact hne (hapart _ he _ hf hp)
  · exact hne (hapart _ hf _ he hp).symm

/-- In an empty directory the files of a base code are written, and no others. -/
theorem exists_writeAll {d : Disk} {place : Place} (hroot : d.lookUp root = .ok (place, .directory))
    (hplace : ∀ s ∈ place, IsName s.spelled) (hempty : d.below place = []) :
    ∃ d', d.writeAll root base.written = .ok d' ∧
      Disk.Grows (fun q node => ∃ f ∈ base.written, Disk.Planted place f.1 f.2 q node) d d' ∧
      d'.Holds place base.written := by
  have hne : ∀ f ∈ base.written, f.1 ≠ [] := List.forall_mem_map.2 fun e he => (h.fits e he).named
  have hnames : ∀ f ∈ base.written, ∀ s ∈ f.1, Disk.IsFileName s :=
    List.forall_mem_map.2 fun e he => (h.fits e he).isFileName
  have hlong : ∀ f ∈ base.written, (root.below f.1).bytes.length < Disk.maxPath :=
    List.forall_mem_map.2 fun e he => (h.fits e he).short
  have hnone (names : List FileName) (hnil : names ≠ []) (hnames : ∀ s ∈ names, Disk.IsFileName s) :
      d.node? (place ++ names) = none := by
    refine Option.eq_none_iff_forall_ne_some.2 fun node hnode => ?_
    have hmem := Disk.mem_below_of_node? hplace (fun s hs => (hnames s hs).isName) hnil hnode
    rw [hempty] at hmem
    cases hmem
  have hroom : ∀ f ∈ base.written, d.HasRoom place f.1 := by
    refine fun f hf => ⟨fun way hway hnil => .inl (hnone way hnil fun s hs => ?_),
      hnone f.1 (hne f hf) (hnames f hf)⟩
    exact hnames f hf s ((hway.trans (List.dropLast_prefix _)).subset hs)
  obtain ⟨d', hwrite, hgrows, hnodes⟩ :=
    Disk.writeAll_eq_ok hplace h.pairwise_written hne hnames hlong hroot hroom
  refine ⟨d', hwrite, hgrows, hnodes, fun x hx => ?_⟩
  -- besides the files nothing is new but the directories on their ways
  rcases hgrows.mem_below hx with hold | ⟨f, hf, ⟨hdirectory, -⟩ | ⟨hplace, hfile⟩⟩
  · rw [hempty] at hold
    cases hold
  · exact .inl (by rw [hdirectory]; rfl)
  · exact .inr ⟨f, hf, Prod.ext hplace hfile⟩

end Storable

end RawBaseCode

/-! ### Adding what is no text -/

namespace Disk

/-- The disk with a node at a path that leads to nothing yet. -/
def add (d : Disk) (p : RawPath) (node : Node) : Except DiskError Disk := do
  match ← d.locate p with
  | .found .. => throw .exists
  | .vacant place asDirectory =>
    if asDirectory && !node.isDirectory then throw .isDirectory else return d.put place node

/-- Adds nodes below a path, one after the other. -/
def addAll (d : Disk) (root : RawPath) (nodes : List (List FileName × Node)) : Except DiskError Disk :=
  nodes.foldlM (fun d x => d.add (root.below x.1) x.2) d

theorem exists_of_add_eq_ok {d d' : Disk} {p : RawPath} {node : Node} (h : d.add p node = .ok d') :
    ∃ place asDirectory, d.locate p = .ok (.vacant place asDirectory) ∧ d' = d.put place node := by
  obtain ⟨target, htarget, h⟩ := bind_eq_ok_iff.1 h
  cases target with
  | found place node => cases h
  | vacant place asDirectory =>
    simp only at h
    split at h
    · cases h
    · exact ⟨place, asDirectory, htarget, (Except.ok.inj h).symm⟩

theorem grows_of_addAll_eq_ok {new : Node → Prop} {d d' : Disk} {root : RawPath}
    {nodes : List (List FileName × Node)} (hhere : ∀ s ∈ d.here, IsName s.spelled)
    (hnew : ∀ x ∈ nodes, new x.2) (h : d.addAll root nodes = .ok d') :
    Grows (fun _ => new) d d' := by
  induction nodes generalizing d with
  | nil =>
    cases h
    exact .refl
  | cons x nodes ih =>
    rw [List.forall_mem_cons] at hnew
    rw [addAll, List.foldlM_cons, bind_eq_ok_iff] at h
    obtain ⟨d₁, hadd, hrest⟩ := h
    obtain ⟨place, asDirectory, hlocate, rfl⟩ := exists_of_add_eq_ok hadd
    have hplace := forall_isName_of_locate_eq_ok hhere hlocate
    have hnone := node?_eq_none_of_follow_eq_vacant (of_locate_eq_ok hlocate).2.2.2
    exact (Grows.one hplace hnone hnew.1).trans (ih hhere hnew.2 hrest)

section
variable {d : Disk} {root : RawPath} {place : Place} (hplace : ∀ s ∈ place, IsName s.spelled)
include hplace

/-- A name that no file has at the beginning is free where it was before the files were written. -/
theorem node?_eq_none_of_planted {d' : Disk} {files : List (List FileName × ByteArray)}
    (h : Grows (fun q node => ∃ f ∈ files, Planted place f.1 f.2 q node) d d') {s : FileName}
    (hs : IsFileName s) (hfree : ∀ f ∈ files, ¬ [s] <+: f.1) (hnone : d.node? (place ++ [s]) = none) :
    d'.node? (place ++ [s]) = none := by
  have hall := forall_isName_append hplace (List.forall_mem_singleton.2 hs)
  refine h.node?_eq_none hall ?_ hnone
  rintro node ⟨f, hf, ⟨-, way, -, hway, heq⟩ | ⟨heq, -⟩⟩
  · exact hfree f hf (List.append_cancel_left heq ▸ hway.trans (List.dropLast_prefix _))
  · exact hfree f hf (List.append_cancel_left heq ▸ List.prefix_rfl)

/-- Under free names in a directory nodes are added. -/
theorem exists_addAll_eq_ok {nodes : List (FileName × Node)}
    (hnames : ∀ x ∈ nodes, IsFileName x.1) (hnodup : (nodes.map (·.1)).Nodup)
    (hlong : ∀ x ∈ nodes, (root.below [x.1]).bytes.length < maxPath)
    (hroot : d.lookUp root = .ok (place, .directory))
    (hfree : ∀ x ∈ nodes, d.node? (place ++ [x.1]) = none) :
    ∃ d', d.addAll root (nodes.map fun x => ([x.1], x.2)) = .ok d' := by
  induction nodes generalizing d with
  | nil => exact ⟨d, rfl⟩
  | cons x nodes ih =>
    rw [List.forall_mem_cons] at hnames hlong hfree
    obtain ⟨hx, hnodup⟩ := List.nodup_cons.1 hnodup
    have hlocate : d.locate (root.below [x.1]) = .ok (.vacant (place ++ [x.1]) false) := by
      rw [locate_below hroot (by simp) (List.forall_mem_singleton.2 hnames.1) hlong.1]
      exact follow_name_of_none hnames.1 hfree.1 []
    have hall := forall_isName_append hplace (List.forall_mem_singleton.2 hnames.1)
    have hgrows : Grows (fun q _ => q = place ++ [x.1]) d (d.put (place ++ [x.1]) x.2) :=
      .one hall hfree.1 rfl
    obtain ⟨d', hrest⟩ := ih hnames.2 hnodup hlong.2 (hgrows.lookUp_eq_ok hroot) fun y hy => by
      refine hgrows.node?_eq_none
        (forall_isName_append hplace (List.forall_mem_singleton.2 (hnames.2 y hy))) ?_ (hfree.2 y hy)
      intro _ heq
      have hxy : y.1 = x.1 := List.singleton_injective (List.append_cancel_left heq)
      exact hx (List.mem_map.2 ⟨y, hy, hxy⟩)
    refine ⟨d', ?_⟩
    rw [addAll, List.map_cons, List.foldlM_cons, add, hlocate]
    exact hrest

end

end Disk

namespace RawBaseCode

/-- A base code is written to an empty directory, and comes back from it exactly if its paths are
text. Where links, directories and files that are no text are added, the same is loaded. -/
theorem exists_writeAll_comesBack_iff {base : RawBaseCode} {d : Disk} {root : RawPath} {place : Place}
    (h : base.Storable root) (hhere : ∀ s ∈ d.here, IsName s.spelled)
    (hroot : d.lookUp root = .ok (place, .directory)) (hempty : d.below place = []) :
    ∃ d₁, d.writeAll root base.written = .ok d₁ ∧
      (base.ComesBack d₁ root ↔ ∀ e ∈ base.files, e.1.path.IsText) ∧
      ∀ nodes, (∀ x ∈ nodes, x.2.text? = none) → ∀ d₂, d₁.addAll root nodes = .ok d₂ →
        d₂.baseCode root = d₁.baseCode root := by
  have hplace := Disk.forall_isName_of_locate_eq_ok hhere (Disk.lookUp_eq_ok_iff.1 hroot)
  obtain ⟨d₁, hwrite, hgrows, hholds⟩ := h.exists_writeAll hroot hplace hempty
  have hroot₁ := hgrows.lookUp_eq_ok hroot
  refine ⟨d₁, hwrite, h.comesBack_iff hplace hholds hroot₁, fun nodes hnodes d₂ hadd => ?_⟩
  exact Disk.baseCode_eq_of_grows hroot₁
    (Disk.grows_of_addAll_eq_ok (hgrows.here_eq ▸ hhere) hnodes hadd)

/-! ### One more file -/

/-- The files that take part in the generation, each with its path for a content, and one more. -/
def requiredWith (p : ContainedRawPath) (content : String) : List (ContainedRawPath × String) :=
  BaseFile.all.map (fun file => ((BaseCode.location file).raw, file.path)) ++ [(p, content)]

section
variable {p : ContainedRawPath} {content : String}

theorem fits_location (file : BaseFile) : (BaseCode.location file).raw.Fits (.ofText "templates") := by
  have hnames : ∀ file ∈ BaseFile.all, (RawPath.ofText file.path).names ≠ [] ∧
      (∀ s ∈ (RawPath.ofText file.path).names,
        RawPath.byte '\\' ∉ s.bytes ∧ 0 ∉ s.bytes ∧ s.bytes.length ≤ Disk.maxName) ∧
      (RawPath.below (.ofText "templates") (RawPath.ofText file.path).names).bytes.length <
        Disk.maxPath := by decide +kernel
  have hhere : ∀ file ∈ BaseFile.all, .here ∉ (RawPath.ofText file.path).components := by
    decide +kernel
  obtain ⟨hnamed, hplain, hshort⟩ := hnames file (BaseCode.mem_all file)
  exact ⟨hnamed, hhere file (BaseCode.mem_all file), fun s hs => (hplain s hs).1,
    fun s hs => (hplain s hs).2, hshort⟩

/-- Neither of two paths lies in the other. -/
def Apart (p q : ContainedRawPath) : Prop :=
  ¬ p.path.components <+: q.path.components ∧ ¬ q.path.components <+: p.path.components

instance (p q : ContainedRawPath) : Decidable (Apart p q) := inferInstanceAs (Decidable (_ ∧ _))

theorem isText_requiredWith (hp : p.path.IsText) :
    ∀ e ∈ requiredWith p content, e.1.path.IsText := by
  refine List.forall_mem_append.2 ⟨?_, List.forall_mem_singleton.2 hp⟩
  exact List.forall_mem_map.2 fun file _ => ⟨_, rfl⟩

variable (hapart : ∀ file ∈ BaseFile.all, Apart (BaseCode.location file).raw p)
include hapart

theorem distinct_requiredWith :
    (requiredWith p content).Pairwise fun e f => e.1.path.components ≠ f.1.path.components := by
  refine List.pairwise_append.2 ⟨?_, List.pairwise_singleton _ _, ?_⟩
  · exact List.pairwise_map.2 ((List.pairwise_map.1 BaseCode.nodup_location).imp fun hne heq =>
      hne (ContainedPath.components_raw_eq_iff.1 heq))
  · intro e he f hf heq
    obtain ⟨file, hfile, rfl⟩ := List.mem_map.1 he
    cases List.mem_singleton.1 hf
    exact (hapart file hfile).1 (heq ▸ List.prefix_rfl)

theorem storable_requiredWith (hfits : p.Fits (.ofText "templates")) :
    Storable ⟨requiredWith p content, distinct_requiredWith hapart⟩ (.ofText "templates") := by
  have hcases (e : ContainedRawPath × String) (he : e ∈ requiredWith p content) :
      (∃ file, e = ((BaseCode.location file).raw, file.path)) ∨ e = (p, content) := by
    rcases List.mem_append.1 he with he | he
    · obtain ⟨file, -, rfl⟩ := List.mem_map.1 he
      exact .inl ⟨file, rfl⟩
    · exact .inr (List.mem_singleton.1 he)
  refine ⟨fun file => ?_, fun e he => ?_, fun e he f hf hp => ?_⟩
  · exact ⟨_, List.mem_append_left _ (List.mem_map_of_mem (BaseCode.mem_all file)),
      RawPath.same_iff.2 rfl⟩
  · rcases hcases e he with ⟨file, rfl⟩ | rfl
    · exact fits_location file
    · exact hfits
  · rcases hcases e he with ⟨file, rfl⟩ | rfl <;> rcases hcases f hf with ⟨file', rfl⟩ | rfl
    · rw [ContainedPath.components_raw, ContainedPath.components_raw] at hp ⊢
      rw [List.prefix_map_iff_of_injective RawPath.spelledComponent_injective] at hp
      exact congrArg _ (BaseCode.components_path_eq_of_prefix hp)
    · exact absurd hp (hapart file (BaseCode.mem_all file)).1
    · exact absurd hp (hapart file' (BaseCode.mem_all file')).2
    · rfl

end

/-- A disk with nothing on it but an empty directory. -/
def emptyTemplates : Disk := Disk.put {} ["templates"] .directory

theorem lookUp_emptyTemplates :
    emptyTemplates.lookUp (.ofText "templates") = .ok (["templates"], .directory) := by
  have hname : Disk.IsFileName "templates" := ⟨by decide +kernel, by decide, by decide⟩
  have hpieces : (RawPath.ofText "templates").pieces = [.ofText "templates"] := by decide +kernel
  rw [Disk.lookUp_eq_ok_iff, Disk.locate_eq_follow (by decide) (by decide) (by decide), hpieces,
    if_neg (by decide +kernel)]
  exact Disk.follow_of_step (.of_isFileName hname (Disk.node?_put_self (by simp))) []

theorem forall_isName_templates : ∀ s ∈ ([.ofText "templates"] : Place), IsName s.spelled := by
  decide +kernel

theorem below_emptyTemplates : emptyTemplates.below ["templates"] = [] :=
  List.isEmpty_iff.1 (by decide +kernel)

/-- A further file whose name has an umlaut, and beside the base code a link, an empty directory and
a file that is no text. -/
theorem notes_comesBack :
    let notes : ContainedRawPath := ⟨.ofText "notes/ä.txt", by decide +kernel⟩
    let base : RawBaseCode := ⟨requiredWith notes "ä", distinct_requiredWith (by decide +kernel)⟩
    let root : RawPath := .ofText "templates"
    let nodes : List (List FileName × Node) :=
      [(["link"], .other), (["empty"], .directory), ([⟨[0xff]⟩], .file ⟨#[0xff]⟩)]
    ∃ d₁ d₂, emptyTemplates.writeAll root base.written = .ok d₁ ∧ d₁.addAll root nodes = .ok d₂ ∧
      base.ComesBack d₁ root ∧ base.ComesBack d₂ root := by
  intro notes base root nodes
  have hfits : notes.Fits root :=
    ⟨by decide +kernel, by decide +kernel, by decide +kernel, by decide +kernel, by decide +kernel⟩
  have hbase : base.Storable root := storable_requiredWith (by decide +kernel) hfits
  obtain ⟨d₁, hwrite, hcomes, hadd⟩ := exists_writeAll_comesBack_iff hbase
    (by simp [emptyTemplates, Disk.put]) lookUp_emptyTemplates below_emptyTemplates
  have hcomes₁ : base.ComesBack d₁ root := hcomes.2 (isText_requiredWith ⟨_, rfl⟩)
  obtain ⟨d₂, hadd₂⟩ : ∃ d₂, d₁.addAll root nodes = .ok d₂ := by
    obtain ⟨d₁', hwrite', hgrows, -⟩ :=
      hbase.exists_writeAll lookUp_emptyTemplates forall_isName_templates below_emptyTemplates
    obtain rfl : d₁ = d₁' := Except.ok.inj (hwrite.symm.trans hwrite')
    let named : List (FileName × Node) :=
      [("link", .other), ("empty", .directory), (⟨[0xff]⟩, .file ⟨#[0xff]⟩)]
    have hnames : ∀ x ∈ named, Disk.IsFileName x.1 := by decide +kernel
    have hlong : ∀ x ∈ named, (root.below [x.1]).bytes.length < Disk.maxPath := by decide +kernel
    have hfree : ∀ x ∈ named, (∀ f ∈ base.written, ¬ [x.1] <+: f.1) ∧
        (emptyTemplates.node? [.ofText "templates", x.1]).isNone = true := by decide +kernel
    have hadded : ∃ d₂, d₁.addAll root (named.map fun x => ([x.1], x.2)) = .ok d₂ :=
      Disk.exists_addAll_eq_ok forall_isName_templates hnames (by decide +kernel) hlong
        (hgrows.lookUp_eq_ok lookUp_emptyTemplates) fun x hx =>
          Disk.node?_eq_none_of_planted forall_isName_templates hgrows (hnames x hx) (hfree x hx).1
            (Option.isNone_iff_eq_none.1 (hfree x hx).2)
    exact hadded
  refine ⟨d₁, d₂, hwrite, hadd₂, hcomes₁, ?_⟩
  rwa [ComesBack, hadd nodes (by decide +kernel) d₂ hadd₂]

/-- A further file whose name is no text is loaded under another. -/
theorem not_comesBack_of_not_isText :
    let other : ContainedRawPath := ⟨⟨[0xe4]⟩, by decide +kernel⟩
    let base : RawBaseCode := ⟨requiredWith other "1", distinct_requiredWith (by decide +kernel)⟩
    let root : RawPath := .ofText "templates"
    base.Storable root ∧ ∃ d₁, emptyTemplates.writeAll root base.written = .ok d₁ ∧
      ¬ base.ComesBack d₁ root := by
  intro other base root
  have hfits : other.Fits root :=
    ⟨by decide +kernel, by decide +kernel, by decide +kernel, by decide +kernel, by decide +kernel⟩
  have hbase : base.Storable root := storable_requiredWith (by decide +kernel) hfits
  obtain ⟨d₁, hwrite, hgrows, hholds⟩ :=
    hbase.exists_writeAll lookUp_emptyTemplates forall_isName_templates below_emptyTemplates
  refine ⟨hbase, d₁, hwrite, fun hcomes => ?_⟩
  have hroot₁ := hgrows.lookUp_eq_ok lookUp_emptyTemplates
  have htext := (hbase.comesBack_iff forall_isName_templates hholds hroot₁).1 hcomes
  have hother : other.path.IsText := htext (other, "1") (List.mem_append_right _ (by simp))
  exact absurd (RawPath.isText_iff_map_components.1 hother) (by decide +kernel)

end RawBaseCode

end Scaffold
