/-!
# Segments of a path's text

The text of a path falls into segments at its slashes. Joining the segments with slashes gives the
text back, and segments without slashes come back from their joined text.
-/

namespace Scaffold.Path

/-- The pieces of a text between its slashes; a text without slashes is one piece. -/
def segments : List Char → List (List Char)
  | [] => [[]]
  | c :: text =>
    if c = '/' then [] :: segments text
    else match segments text with
      | [] => [[c]]
      | segment :: rest => (c :: segment) :: rest

/-- The text whose pieces between slashes are the given ones. -/
def joinSegments : List (List Char) → List Char
  | [] => []
  | [segment] => segment
  | segment :: rest => segment ++ '/' :: joinSegments rest

theorem segments_ne_nil (text : List Char) : segments text ≠ [] := by
  cases text with
  | nil => simp [segments]
  | cons c text => simp only [segments]; split <;> (try split) <;> simp

theorem joinSegments_cons {segment : List Char} {rest : List (List Char)} (h : rest ≠ []) :
    joinSegments (segment :: rest) = segment ++ '/' :: joinSegments rest := by
  cases rest with
  | nil => exact absurd rfl h
  | cons _ _ => rfl

/-- No piece between slashes holds a slash. -/
theorem slash_not_mem_of_mem_segments {text segment : List Char} (h : segment ∈ segments text) :
    '/' ∉ segment := by
  induction text generalizing segment with
  | nil => simp_all [segments]
  | cons c text ih =>
    simp only [segments] at h
    split at h
    · rcases List.mem_cons.1 h with rfl | h
      · simp
      · exact ih h
    · rename_i hc
      split at h
      · exact absurd ‹_› (segments_ne_nil text)
      · rename_i first rest heq
        rcases List.mem_cons.1 h with rfl | h
        · have := @ih first (by simp [heq])
          simp [this, Ne.symm hc]
        · exact ih (by simp [heq, h])

/-- The pieces of a text joined again are the text. -/
@[simp] theorem joinSegments_segments (text : List Char) : joinSegments (segments text) = text := by
  induction text with
  | nil => rfl
  | cons c text ih =>
    simp only [segments]
    split
    · rename_i hc
      rw [joinSegments_cons (segments_ne_nil text), ih, hc]; rfl
    · split
      · exact absurd ‹_› (segments_ne_nil text)
      · rename_i first rest heq
        rw [heq] at ih
        cases rest with
        | nil => simpa [joinSegments] using ih
        | cons next rest => simp [joinSegments_cons] at ih ⊢; exact ih

/-- A slash between two texts adds up their pieces. -/
theorem segments_append_slash (text more : List Char) :
    segments (text ++ '/' :: more) = segments text ++ segments more := by
  induction text with
  | nil => simp [segments]
  | cons c text ih =>
    simp only [List.cons_append, segments, ih]
    split
    · rfl
    · cases h : segments text with
      | nil => exact absurd h (segments_ne_nil text)
      | cons first rest => simp

/-- A text without slashes is its own only piece. -/
theorem segments_of_slash_not_mem {text : List Char} (h : '/' ∉ text) : segments text = [text] := by
  induction text with
  | nil => rfl
  | cons c text ih =>
    simp only [List.mem_cons, not_or] at h
    simp [segments, ih h.2, Ne.symm h.1]

/-- Pieces without slashes are the pieces of the text they join to. -/
theorem segments_joinSegments {pieces : List (List Char)} (hne : pieces ≠ [])
    (h : ∀ piece ∈ pieces, '/' ∉ piece) : segments (joinSegments pieces) = pieces := by
  induction pieces with
  | nil => exact absurd rfl hne
  | cons piece pieces ih =>
    cases pieces with
    | nil => exact segments_of_slash_not_mem (h piece (by simp))
    | cons next pieces =>
      rw [joinSegments_cons (by simp), segments_append_slash,
        segments_of_slash_not_mem (h piece (by simp)), ih (by simp) fun q hq => h q (by simp [hq])]
      rfl

end Scaffold.Path
