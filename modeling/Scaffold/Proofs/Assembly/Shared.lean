import Scaffold.Assembly.Application
import Scaffold.Proofs.BaseCode.Basic

/-!
# Shared files that gather blocks

Which of the shared files are aggregates depends on what their paths mean, however these are
spelled (`ContainedPath.aggregate?_eq_some_iff`). So an aggregate of the base code is one of its
shared files (`BaseCode.content_aggregate_eq_ok_iff`), and the names of the application are put
into it (`ContainedPath.takesAppName_of_aggregate?`).
-/

namespace Scaffold

namespace ContainedPath

theorem aggregate?_eq_some_iff {path : ContainedPath} {aggregate : Aggregate} :
    path.aggregate? = some aggregate ↔
      path.path.components = Path.components ⟨(BaseFile.aggregate aggregate).path⟩ := by
  rw [← Path.key_eq_iff, aggregate?]
  constructor
  · intro h
    simpa [Path.same] using List.find?_some h
  · intro h
    simp only [Path.same, h]
    cases aggregate <;> decide +kernel

theorem aggregate?_congr {path other : ContainedPath} (h : path.path.key = other.path.key) :
    path.aggregate? = other.aggregate? := by
  simp only [aggregate?, Path.same, h]

theorem takesAppName_congr {path other : ContainedPath}
    (h : path.path.components = other.path.components) :
    path.takesAppName = other.takesAppName := by
  simp only [takesAppName, Path.extension?, Path.fileName?, Path.same, Path.key,
    Path.components_parent, h]

theorem takesAppName_of_aggregate? {path : ContainedPath} {aggregate : Aggregate}
    (h : path.aggregate? = some aggregate) : path.takesAppName = true := by
  have hpath : path.path.components =
      (BaseCode.location (.aggregate aggregate)).path.components := aggregate?_eq_some_iff.1 h
  rw [takesAppName_congr hpath]
  cases aggregate <;> decide +kernel

end ContainedPath

theorem BaseCode.content_aggregate_eq_ok_iff {base : BaseCode} {aggregate : Aggregate}
    {source : String} : base.content (.aggregate aggregate) = .ok source ↔
      ∃ path, (path, source) ∈ base.sharedFiles ∧ path.aggregate? = some aggregate := by
  constructor
  · intro h
    obtain ⟨path, hmem, hpath⟩ := exists_mem_of_content_eq_ok h
    have hshared : path.startsWith modelDirectory = false := by
      rw [Path.startsWith, hpath]
      cases aggregate <;> decide +kernel
    exact ⟨⟨path, base.contained (path, source) hmem⟩, mem_sharedFiles.2 ⟨hmem, hshared⟩,
      ContainedPath.aggregate?_eq_some_iff.2 hpath⟩
  · rintro ⟨path, hmem, hpath⟩
    have hkey := Path.key_eq_iff.2 (ContainedPath.aggregate?_eq_some_iff.1 hpath)
    exact content_eq_ok (PathMap.find?_of_mem (mem_sharedFiles.1 hmem).1 hkey)

end Scaffold
