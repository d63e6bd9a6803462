import Scaffold.Path.Segment

/-!
# Segments of texts put together

What becomes of the pieces between slashes when a text without slashes follows
(`exists_segments_append`) and when texts are joined with slashes (`segments_joinSegments_flatMap`).
-/

namespace Scaffold.Path

/-- A text without slashes goes on with the last piece of the text before it. -/
theorem exists_segments_append {ending : List Char} (h : '/' ∉ ending) (text : List Char) :
    ∃ front last, segments text = front ++ [last] ∧
      segments (text ++ ending) = front ++ [last ++ ending] := by
  induction text with
  | nil => exact ⟨[], [], rfl, segments_of_slash_not_mem h⟩
  | cons c text ih =>
    obtain ⟨front, last, htext, hmore⟩ := ih
    by_cases hc : c = '/'
    · exact ⟨[] :: front, last, by simp [segments, hc, htext], by simp [segments, hc, hmore]⟩
    · cases front with
      | nil => exact ⟨[], c :: last, by simp [segments, hc, htext], by simp [segments, hc, hmore]⟩
      | cons first front =>
        exact ⟨(c :: first) :: front, last, by simp [segments, hc, htext],
          by simp [segments, hc, hmore]⟩

/-- A text without slashes goes on with the first piece of the text behind it. -/
theorem segments_append_of_slash_not_mem {beginning text first : List Char} {rest : List (List Char)}
    (h : '/' ∉ beginning) (htext : segments text = first :: rest) :
    segments (beginning ++ text) = (beginning ++ first) :: rest := by
  induction beginning with
  | nil => exact htext
  | cons c beginning ih =>
    obtain ⟨hc, hrest⟩ := not_or.1 (mt List.mem_cons.2 h)
    rw [List.cons_append, segments, if_neg (Ne.symm hc), ih hrest]
    rfl

theorem mem_of_mem_segments {text segment : List Char} (h : segment ∈ segments text) {c : Char}
    (hc : c ∈ segment) : c ∈ text := by
  induction text generalizing segment with
  | nil =>
    rw [segments, List.mem_singleton] at h
    exact h ▸ hc
  | cons d text ih =>
    rw [segments] at h
    split at h
    · rcases List.mem_cons.1 h with rfl | h
      · cases hc
      · exact List.mem_cons_of_mem d (ih h hc)
    · cases hs : segments text with
      | nil => exact absurd hs (segments_ne_nil text)
      | cons first rest =>
        simp only [hs] at h
        rcases List.mem_cons.1 h with rfl | h
        · rcases List.mem_cons.1 hc with rfl | hc
          · exact List.mem_cons_self
          · exact List.mem_cons_of_mem d (ih (by rw [hs]; exact List.mem_cons_self) hc)
        · exact List.mem_cons_of_mem d (ih (by rw [hs]; exact List.mem_cons_of_mem first h) hc)

/-- Joined texts have the pieces of all of them. -/
theorem segments_joinSegments_flatMap {pieces : List (List Char)} (h : pieces ≠ []) :
    segments (joinSegments pieces) = pieces.flatMap segments := by
  induction pieces with
  | nil => exact absurd rfl h
  | cons piece pieces ih =>
    cases pieces with
    | nil => simp [joinSegments]
    | cons next pieces =>
      rw [joinSegments_cons (by simp), segments_append_slash, ih (by simp)]
      rfl

end Scaffold.Path
