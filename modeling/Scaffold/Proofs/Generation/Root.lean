import Scaffold.Command.Tasks
import Scaffold.Proofs.Generation.Changes
import Scaffold.Proofs.Path.Chain
import Scaffold.Proofs.Text.Word

/-!
# The root that nobody asked for

Where neither a request nor the settings say where an application goes, its root has the
camel-cased name of the project for its text, whatever that spells. Letter case has no part in
slashes and dots, so that it can be read off the description whether the root leads below the
directory it is seen from (`Command.GenerateRequest.root_leadsDown_iff`).
-/

namespace Scaffold

namespace Path

open Component (root here up name)

/-- A path that leads to a place below the directory it is seen from. -/
structure LeadsDown (p : Path) : Prop where
  root : root ∉ p.components
  up : up ∉ p.components
  name : ∃ s, name s ∈ p.components

/-- What lies in a place below leads down too. -/
theorem LiesIn.leadsDown {p dir : Path} (h : p.LiesIn dir) (hdir : dir.LeadsDown) : p.LeadsDown := by
  obtain ⟨more, hmore, hup, hroot⟩ := h
  obtain ⟨s, hs⟩ := hdir.name
  refine ⟨?_, ?_, s, ?_⟩ <;> rw [hmore, List.mem_append]
  · exact not_or.2 ⟨hdir.root, hroot⟩
  · exact not_or.2 ⟨hdir.up, hup⟩
  · exact .inl hs

/-- Where no piece is a step up, a piece is a name unless it means nothing. -/
theorem exists_name_mem_components_iff {p : Path} (h : p.escape? = none) :
    (∃ s, name s ∈ p.components) ↔ ∃ piece ∈ segments p.chars, piece ≠ [] ∧ piece ≠ ['.'] := by
  obtain ⟨hhead, hup⟩ := escape?_eq_none_iff.1 h
  have hname {piece : List Char} (hpiece : piece ∈ segments p.chars) :
      (∃ s, innerComponent? piece = some (name s)) ↔ piece ≠ [] ∧ piece ≠ ['.'] := by
    have hne : piece ≠ ['.', '.'] := fun heq => hup (heq ▸ hpiece)
    simp [innerComponent?, isIdle, hne, not_or]
  have hmem (s : String) : name s ∈ p.components ↔
      ∃ piece ∈ segments p.chars, innerComponent? piece = some (name s) := by
    have hrelative : p.isAbsolute = false := by simpa [isAbsolute] using hhead
    rw [← List.mem_filterMap, filterMap_innerComponent?_segments hrelative, List.mem_filter]
    simp
  constructor
  · rintro ⟨s, hs⟩
    obtain ⟨piece, hpiece, hinner⟩ := (hmem s).1 hs
    exact ⟨piece, hpiece, (hname hpiece).1 ⟨s, hinner⟩⟩
  · rintro ⟨piece, hpiece, hne⟩
    obtain ⟨s, hinner⟩ := (hname hpiece).2 hne
    exact ⟨s, (hmem s).2 ⟨piece, hpiece, hinner⟩⟩

theorem leadsDown_iff {p : Path} :
    p.LeadsDown ↔ p.escape? = none ∧ ∃ piece ∈ segments p.chars, piece ≠ [] ∧ piece ≠ ['.'] := by
  constructor
  · intro h
    have hescape := escape?_eq_none_iff_not_mem.2 ⟨h.root, h.up⟩
    exact ⟨hescape, (exists_name_mem_components_iff hescape).1 h.name⟩
  · rintro ⟨hescape, hpiece⟩
    obtain ⟨hroot, hup⟩ := escape?_eq_none_iff_not_mem.1 hescape
    exact ⟨hroot, hup, (exists_name_mem_components_iff hescape).2 hpiece⟩

/-! ### Texts in another case -/

section
variable {p q : Path} (h : Text.Recased p.chars q.chars)
include h

/-- What leads out of an application in one case does so in every case. -/
theorem escape?_eq_none_iff_of_recased : q.escape? = none ↔ p.escape? = none := by
  rw [escape?_eq_none_iff, escape?_eq_none_iff, segments_eq_splitOn, segments_eq_splitOn, Ne, Ne,
    h.head?_eq_some_iff (by decide), h.mem_splitOn_iff (by decide) (by decide)]

theorem leadsDown_iff_of_recased : q.LeadsDown ↔ p.LeadsDown := by
  rw [leadsDown_iff, leadsDown_iff, escape?_eq_none_iff_of_recased h, segments_eq_splitOn,
    segments_eq_splitOn]
  refine and_congr_right fun _ => h.exists_mem_splitOn_iff (fun hpiece => ?_) (by decide)
  rw [Ne, Ne, hpiece.eq_nil_iff, hpiece.eq_iff_of_isCaseless (by decide)]

end

end Path

namespace Project

/-- What the root of a project is spelled by: the camel-cased name, where the description gives one,
else the display name without its separators. -/
def givenName (p : Project) : List Char :=
  match p.camelName? with
  | some name => if name.isEmpty then Text.withoutSeparators p.name.toList else name.toList
  | none => Text.withoutSeparators p.name.toList

theorem recased_camelName (p : Project) : Text.Recased p.givenName p.camelName.toList := by
  have hderived : Text.Recased (Text.withoutSeparators p.name.toList) (camelCased p.name).toList := by
    rw [camelCased, String.toList_ofList]
    exact Text.recased_camelCase _
  unfold givenName camelName
  cases p.camelName? with
  | none => exact hderived
  | some name =>
    dsimp only
    split
    · exact hderived
    · exact .refl _

end Project

namespace Command.GenerateRequest

/-- The root that is named after a project, and what its name has to be for it to be another place
than the directory that the run starts in, and one below it. -/
theorem root_leadsDown_iff {r : GenerateRequest} {settings : Settings} (hr : r.output? = none)
    (hsettings : settings.output? = none) (p : Project) :
    r.root settings p = ⟨p.camelName⟩ ∧
    ((r.root settings p).text ≠ "" ∧ .root ∉ (r.root settings p).components ∧
        .up ∉ (r.root settings p).components ↔
      p.givenName ≠ [] ∧ p.givenName.head? ≠ some '/' ∧ ['.', '.'] ∉ p.givenName.splitOn '/') ∧
    ((r.root settings p).LeadsDown ↔
      p.givenName.head? ≠ some '/' ∧ ['.', '.'] ∉ p.givenName.splitOn '/' ∧
        ∃ piece ∈ p.givenName.splitOn '/', piece ≠ [] ∧ piece ≠ ['.']) ∧
    ((r.root settings p).LeadsDown → ∀ q : Path, q.LiesIn (r.root settings p) → q.LeadsDown) := by
  have hroot : r.root settings p = ⟨p.camelName⟩ := by
    rw [GenerateRequest.root, hr, hsettings]
    rfl
  have hcase : Text.Recased (Path.ofChars p.givenName).chars (Path.mk p.camelName).chars := by
    rw [Path.chars_ofChars]
    exact p.recased_camelName
  have hescape : (Path.ofChars p.givenName).escape? = none ↔
      p.givenName.head? ≠ some '/' ∧ ['.', '.'] ∉ p.givenName.splitOn '/' := by
    rw [Path.escape?_eq_none_iff, Path.chars_ofChars, Path.segments_eq_splitOn]
  rw [hroot]
  refine ⟨rfl, ?_, ?_, fun h q hq => hq.leadsDown h⟩
  · have hempty : p.camelName ≠ "" ↔ p.givenName ≠ [] := by
      rw [Ne, ← String.toList_eq_nil_iff, p.recased_camelName.eq_nil_iff]
    rw [← Path.escape?_eq_none_iff_not_mem, Path.escape?_eq_none_iff_of_recased hcase, hescape]
    exact and_congr_left' hempty
  · rw [Path.leadsDown_iff_of_recased hcase, Path.leadsDown_iff, hescape, Path.chars_ofChars,
      Path.segments_eq_splitOn, and_assoc]

/-- A display name with a slash and with dots that lead nowhere else. -/
theorem root_leadsDown_of_slash :
    let garage : Project := ⟨"./My Cars/..old-ones", none, []⟩
    let r : GenerateRequest := ⟨⟨"garage.json"⟩, none, none, false, false, false⟩
    (r.root {} garage).text = "./myCars/..oldOnes" ∧ (r.root {} garage).LeadsDown := by
  intro garage r
  obtain ⟨hroot, -, hdown, -⟩ := @root_leadsDown_iff r {} rfl rfl garage
  refine ⟨?_, hdown.2 (by decide +kernel)⟩
  rw [hroot]
  decide +kernel

/-- A name of separators alone leaves the root empty; other names make it absolute or lead
it upward. -/
theorem exists_root_not_leadsDown :
    let r : GenerateRequest := ⟨⟨"garage.json"⟩, none, none, false, false, false⟩
    r.output? = none ∧ (r.root {} ⟨"--", none, []⟩).text = "" ∧
      .root ∈ (r.root {} ⟨"/dev/null/site", none, []⟩).components ∧
      .up ∈ (r.root {} ⟨"Garage", some "..", []⟩).components := by
  decide +kernel

end Command.GenerateRequest

end Scaffold
