import Scaffold.Error.Run
import Scaffold.Proofs.Error.Steps

/-!
# Texts as contained paths

A text that is no contained path is an error where it comes from a description
(`ContainedPath.ofText`), and a breach where it is relied on (`ContainedPath.relied`).
-/

namespace Scaffold

namespace ContainedPath

theorem ofPath?_eq_ok_iff {path : Path} {p : ContainedPath} :
    ofPath? path = .ok p ↔ p.path = path := by
  rw [ofPath?]
  split
  · rename_i h
    rw [Except.ok.injEq]
    constructor
    · rintro rfl
      rfl
    · obtain ⟨q, hq⟩ := p
      rintro rfl
      rfl
  · rename_i escape h
    refine ⟨by simp, ?_⟩
    obtain ⟨q, hq⟩ := p
    rintro rfl
    exact absurd (h.symm.trans hq) (by simp)

theorem ofPath?_eq_error_iff {path : Path} {escape : Path.Escape} :
    ofPath? path = .error escape ↔ path.escape? = some escape := by
  rw [ofPath?]
  split
  · rename_i h
    simp [h]
  · rename_i found h
    rw [h, Except.error.injEq, Option.some.injEq]

theorem ofText_eq_ok_iff {text : String} {p : ContainedPath} :
    ofText text = .ok p ↔ p.text = text := by
  rw [ofText, mapError_eq_ok_iff, ofPath?_eq_ok_iff]
  exact ⟨congrArg Path.text, congrArg Path.mk⟩

theorem relied_eq_ok_iff {text : String} {p : ContainedPath} :
    relied text = .ok p ↔ p.text = text := by
  rw [relied, mapError_eq_ok_iff, ofPath?_eq_ok_iff]
  exact ⟨congrArg Path.text, congrArg Path.mk⟩

theorem relied_text (p : ContainedPath) : relied p.text = .ok p := relied_eq_ok_iff.2 rfl

theorem ofText_eq_error_iff {text : String} {error : ProjectError} :
    ofText text = .error error ↔
      ∃ escape, Path.escape? ⟨text⟩ = some escape ∧ ProjectError.ofEscape ⟨text⟩ escape = error := by
  rw [ofText, mapError_eq_error_iff]
  simp only [ofPath?_eq_error_iff]

theorem relied_eq_error_iff {text : String} {error : Error} :
    relied text = .error error ↔ Path.escape? ⟨text⟩ ≠ none ∧ error = .breach ⟨text⟩ := by
  rw [relied, mapError_eq_error_iff, Option.ne_none_iff_exists']
  simp only [ofPath?_eq_error_iff]
  constructor
  · rintro ⟨escape, h, rfl⟩
    exact ⟨⟨escape, h⟩, rfl⟩
  · rintro ⟨⟨escape, h⟩, rfl⟩
    exact ⟨escape, h, rfl⟩

end ContainedPath

end Scaffold
