import Scaffold.Assembly.RawTree
import Scaffold.Proofs.Assembly.Tree
import Scaffold.Proofs.Path.Raw

/-!
# Paths as they are shown

What is shown of a contained path are its components with slashes between them, and what is no text
in them is replaced. That tells apart the paths that are text, exactly as they themselves do, and
finds their files in a tree that passes its check (`ContainedRawPath.display_faithful`); for other
paths it does neither.
-/

namespace Scaffold

namespace ContainedPath

theorem display_eq (p : ContainedPath) :
    p.display = "/".intercalate (p.path.components.map Path.Component.text) :=
  RawPath.display_ofText p.text

end ContainedPath

namespace ContainedRawPath

theorem ofPath?_eq_ok_iff {path : RawPath} {p : ContainedRawPath} :
    ofPath? path = .ok p ↔ p.path = path := by
  rw [ofPath?]
  split
  · rename_i h
    rw [Except.ok.injEq]
    constructor
    · rintro rfl
      rfl
    · obtain ⟨q, hq⟩ := p
      rintro rfl
      rfl
  · rename_i escape h
    refine ⟨by simp, ?_⟩
    obtain ⟨q, hq⟩ := p
    rintro rfl
    exact absurd (h.symm.trans hq) (by simp)

theorem components_display (p : ContainedRawPath) :
    Path.components ⟨p.display⟩ = p.path.components.map RawPath.shownComponent :=
  RawPath.components_display (Path.escape?_eq_none_iff_not_mem.1 p.contained).1

/-- What is shown of a contained path is the text of one. -/
theorem escape?_display (p : ContainedRawPath) :
    (RawPath.ofText p.display).spelled.escape? = none := by
  obtain ⟨hroot, hup⟩ := Path.escape?_eq_none_iff_not_mem.1 p.contained
  have hmem {c : Path.Component} (hname : ∀ s, c ≠ .name s)
      (h : c ∈ p.path.components.map RawPath.shownComponent) : c ∈ p.path.components := by
    obtain ⟨d, hd, rfl⟩ := List.mem_map.1 h
    cases d with
    | name => exact absurd rfl (hname _)
    | root | here | up => exact hd
  rw [RawPath.escape?_ofText, Path.escape?_eq_none_iff_not_mem, components_display]
  exact ⟨fun h => hroot (hmem (by simp) h), fun h => hup (hmem (by simp) h)⟩

theorem components_ofText_display (p : ContainedRawPath) :
    (RawPath.ofText p.display).components =
      (p.path.components.map RawPath.shownComponent).map RawPath.spelledComponent := by
  rw [RawPath.components_ofText, components_display]

/-- What is shown of a path means the path exactly if that is text. -/
theorem same_ofText_display_iff {p : ContainedRawPath} :
    (RawPath.ofText p.display).same p.path = true ↔ p.path.IsText := by
  rw [RawPath.same_iff, components_ofText_display, RawPath.isText_iff_map_components]

theorem display_eq_of_same {p q : ContainedRawPath} (h : p.path.same q.path = true) :
    p.display = q.display := by
  rw [display, display, RawPath.display_eq, RawPath.display_eq, RawPath.same_iff.1 h]

end ContainedRawPath

namespace RawTree

/-- The entry that spells an entry. -/
def spelledEntry : RawTreeEntry → TreeEntry
  | .directory path => .directory path.spelled
  | .file path content => .file path.spelled content

/-- The tree that spells a tree. -/
def spelled (t : RawTree) : OutputTree := ⟨t.entries.map spelledEntry⟩

theorem path_spelledEntry (entry : RawTreeEntry) : (spelledEntry entry).path = entry.path.spelled := by
  cases entry <;> rfl

theorem files_spelled (t : RawTree) :
    t.spelled.files = t.files.map fun f => (f.1.spelled, f.2) := by
  obtain ⟨entries⟩ := t
  induction entries with
  | nil => rfl
  | cons entry entries ih =>
    cases entry with
    | directory path => exact ih
    | file path content => exact congrArg (_ :: ·) ih

theorem validate_spelled {t : RawTree} (h : t.validate = .ok ()) : t.spelled.validate = .ok () := by
  have hpaths : t.spelled.entries.map TreeEntry.path = t.entries.map (·.path.spelled) := by
    rw [spelled, List.map_map]
    exact List.map_congr_left fun entry _ => path_spelledEntry entry
  have hempty : t.spelled.entries.isEmpty = t.entries.isEmpty := by
    rw [spelled, List.isEmpty_map]
  rw [OutputTree.validate, hpaths, hempty]
  rw [validate] at h
  by_cases hnone : t.entries.isEmpty
  · rw [if_pos hnone] at h
    cases h
  · rw [if_neg hnone] at h ⊢
    cases hfirst : OutputTree.firstRepeated? [] (t.entries.map (·.path.spelled)) with
    | none => rfl
    | some path =>
      rw [hfirst] at h
      cases h

theorem content?_spelled (t : RawTree) (p : RawPath) :
    t.spelled.content? p.spelled = t.content? p := by
  rw [OutputTree.content?, files_spelled, List.find?_map, Option.map_map]
  rfl

/-- In a tree that passes its check every file is found at each path that means its own. -/
theorem content?_eq_some {t : RawTree} (h : t.validate = .ok ()) {f : ContainedRawPath × String}
    (hf : f ∈ t.files) {p : RawPath} (hp : p.same f.1.path = true) : t.content? p = some f.2 := by
  rw [← content?_spelled, OutputTree.content?_eq_some_iff (validate_spelled h), files_spelled]
  exact ⟨_, List.mem_map_of_mem hf, Path.key_eq_iff.2 (RawPath.same_iff.1 hp).symm, rfl⟩

end RawTree

namespace ContainedRawPath

/-- Read as a path, what is shown of a path is one, and it means the same exactly if the path is
text. Among paths that are text it is the same for two exactly if they mean the same. So it finds
each file of a tree that passes its check and whose path is text. -/
theorem display_faithful :
    (∀ p : ContainedRawPath, ∃ r, ofPath? (.ofText p.display) = .ok r ∧
        (r.path.same p.path = true ↔ p.path.IsText)) ∧
      (∀ p q : ContainedRawPath, p.path.IsText → q.path.IsText →
        (p.path.same q.path = true ↔ p.display = q.display)) ∧
      ∀ t : RawTree, t.validate = .ok () → ∀ f ∈ t.files, f.1.path.IsText →
        ∃ r, ofPath? (.ofText f.1.display) = .ok r ∧ t.content? r.path = some f.2 := by
  have hread (p : ContainedRawPath) : ofPath? (.ofText p.display) = .ok ⟨_, p.escape?_display⟩ :=
    ofPath?_eq_ok_iff.2 rfl
  refine ⟨fun p => ⟨_, hread p, same_ofText_display_iff⟩, fun p q hp hq => ?_, ?_⟩
  · refine ⟨display_eq_of_same, fun h => ?_⟩
    have hp' := RawPath.same_iff.1 (same_ofText_display_iff.2 hp)
    have hq' := RawPath.same_iff.1 (same_ofText_display_iff.2 hq)
    rw [RawPath.same_iff, ← hp', ← hq', h]
  · intro t hvalid f hf htext
    exact ⟨_, hread f.1, RawTree.content?_eq_some hvalid hf (same_ofText_display_iff.2 htext)⟩

/-- Two files that differ by a dot at the beginning, beside one whose name is no text. -/
theorem display_faithful_of_dot :
    let dotted : ContainedRawPath := ⟨.ofText "./ä//b", by decide +kernel⟩
    let plain : ContainedRawPath := ⟨.ofText "ä/./b/", by decide +kernel⟩
    let other : ContainedRawPath := ⟨⟨[0xe4, 0x2f, 0x62]⟩, by decide +kernel⟩
    let t : RawTree := ⟨[.file dotted "1", .file other "2", .file plain "3"]⟩
    dotted.display = "./ä/b" ∧ plain.display = "ä/b" ∧ dotted.path.same plain.path = false ∧
      t.validate = .ok () ∧ ∃ r, ofPath? (.ofText "ä/b") = .ok r ∧ t.content? r.path = some "3" := by
  intro dotted plain other t
  obtain ⟨-, hsame, hfile⟩ := display_faithful
  have hdotted : dotted.path.IsText := ⟨_, rfl⟩
  have hplain : plain.path.IsText := ⟨_, rfl⟩
  have hdots : dotted.display = "./ä/b" := by decide +kernel
  have hdisplay : plain.display = "ä/b" := by decide +kernel
  have hne : ¬ dotted.path.same plain.path = true := by
    rw [hsame dotted plain hdotted hplain, hdots, hdisplay]
    decide
  have hvalid : t.validate = .ok () := by decide +kernel
  have hmem : (plain, "3") ∈ t.files := by decide +kernel
  obtain ⟨r, hr, hcontent⟩ := hfile t hvalid _ hmem hplain
  exact ⟨hdots, hdisplay, Bool.eq_false_iff.2 hne, hvalid, r, hdisplay ▸ hr, hcontent⟩

/-- Two paths that are no text are shown alike, as a third one, which does not find their files. -/
theorem display_eq_of_not_same :
    let p : ContainedRawPath := ⟨⟨[0xff]⟩, by decide +kernel⟩
    let q : ContainedRawPath := ⟨⟨[0xfe]⟩, by decide +kernel⟩
    let r : ContainedRawPath := ⟨.ofText "\ufffd", by decide +kernel⟩
    let t : RawTree := ⟨[.file p "1"]⟩
    p.path.same q.path = false ∧ p.display = q.display ∧
      ofPath? (.ofText p.display) = .ok r ∧ r.path.same p.path = false ∧
      t.validate = .ok () ∧ (p, "1") ∈ t.files ∧ t.content? r.path = none := by
  decide +kernel

end ContainedRawPath

end Scaffold
