import Mathlib.Algebra.Group.Nat.Defs
import Scaffold.Text.Decoded

/-!
# Texts that come back from their bytes

What is shown of the bytes of a text is the text (`Text.shown_encoded`). Of other bytes
those of plain characters at least are shown as they are: no such character comes from
anything else (`Text.exists_byte_of_mem_decodeFrom`, `Text.decodeFrom_eq_map_of_isAscii`).
-/

namespace Scaffold.Text

theorem encoded_eq (text : String) : encoded text = text.toList.flatMap String.utf8EncodeChar := by
  have h (cs : List Char) : encoded (String.ofList cs) = cs.flatMap String.utf8EncodeChar := by
    rw [encoded, String.toUTF8, String.toByteArray_ofList, List.utf8Encode,
      List.toList_data_toByteArray]
  rw [← h, String.ofList_toList]

theorem toNat_ofNat_add (n : Nat) {k : Nat} (h : n + k < 256) :
    (UInt8.ofNat (n + k)).toNat = n + k := by
  rw [UInt8.toNat_ofNat']
  omega

/-- The bytes of a character, as many as its number calls for. -/
inductive Bytes (v : Nat) : List UInt8 → Prop
  | one : v ≤ 0x7f → Bytes v [UInt8.ofNat (v + 0)]
  | two : 0x7f < v → v ≤ 0x7ff →
    Bytes v [UInt8.ofNat (v / 64 % 32 + 192), UInt8.ofNat (v % 64 + 128)]
  | three : 0x7ff < v → v ≤ 0xffff →
    Bytes v [UInt8.ofNat (v / 4096 % 16 + 224), UInt8.ofNat (v / 64 % 64 + 128),
      UInt8.ofNat (v % 64 + 128)]
  | four : 0xffff < v →
    Bytes v [UInt8.ofNat (v / 262144 % 8 + 240), UInt8.ofNat (v / 4096 % 64 + 128),
      UInt8.ofNat (v / 64 % 64 + 128), UInt8.ofNat (v % 64 + 128)]

theorem bytes_utf8EncodeChar (c : Char) : Bytes c.toNat (String.utf8EncodeChar c) := by
  have hv : c.val.toNat = c.toNat := rfl
  by_cases h1 : c.toNat ≤ 0x7f
  · simpa [String.utf8EncodeChar, hv, h1] using Bytes.one h1
  by_cases h2 : c.toNat ≤ 0x7ff
  · simpa [String.utf8EncodeChar, hv, h1, h2] using Bytes.two (by omega) h2
  by_cases h3 : c.toNat ≤ 0xffff
  · simpa [String.utf8EncodeChar, hv, h1, h2, h3] using Bytes.three (by omega) h3
  · simpa [String.utf8EncodeChar, hv, h1, h2, h3] using Bytes.four (by omega)

/-- Every byte of a character that is not a single one is a large one. -/
theorem Bytes.forall_le {v : Nat} {bytes : List UInt8} (h : Bytes v bytes)
    (hv : 0x80 ≤ v) : ∀ b ∈ bytes, 0x80 ≤ b.toNat := by
  cases h with
  | one => omega
  | two | three | four =>
    simp only [List.mem_cons, List.not_mem_nil, or_false, forall_eq_or_imp, forall_eq,
      UInt8.toNat_ofNat']
    omega

/-! ### Reading what has been written -/

section
variable {b : UInt8} {rest : List UInt8} {begun : Begun} {n : Nat}

theorem decodeFrom_of_begin_inl {c : Char} (h : begin b.toNat = .inl c) :
    decodeFrom none (b :: rest) = c :: decodeFrom none rest := by
  simp only [decodeFrom, h]

theorem decodeFrom_of_begin_inr (h : begin b.toNat = .inr begun) :
    decodeFrom none (b :: rest) = decodeFrom (some begun) rest := by
  simp only [decodeFrom, h]

section
variable (hlow : begun.low ≤ b.toNat) (hhigh : b.toNat ≤ begun.high)
include hlow hhigh

/-- The last byte of a character. -/
theorem decodeFrom_some_last (hmissing : begun.missing ≤ 1) :
    decodeFrom (some begun) (b :: rest) =
      Char.ofNat (begun.bits * 64 + b.toNat % 64) :: decodeFrom none rest := by
  simp only [decodeFrom, hlow, hhigh, hmissing, and_self, if_true]

/-- A byte of a character that more of them belong to. -/
theorem decodeFrom_some_more (hmissing : 1 < begun.missing) :
    decodeFrom (some begun) (b :: rest) =
      decodeFrom (some { bits := begun.bits * 64 + b.toNat % 64, missing := begun.missing - 1 })
        rest := by
  simp only [decodeFrom, hlow, hhigh, Nat.not_le.2 hmissing, and_self, if_true, if_false]

end

/-- A byte that does not belong to the character that has begun. -/
theorem decodeFrom_some_other (h : ¬ (begun.low ≤ b.toNat ∧ b.toNat ≤ begun.high)) :
    decodeFrom (some begun) (b :: rest) = replacement :: decodeFrom none (b :: rest) := by
  simp only [decodeFrom, if_neg h]

section
variable (hlow : begun.low ≤ n % 64 + 128) (hhigh : n % 64 + 128 ≤ begun.high)
include hlow hhigh

theorem decodeFrom_last_tail (hmissing : begun.missing ≤ 1) :
    decodeFrom (some begun) (UInt8.ofNat (n % 64 + 128) :: rest) =
      Char.ofNat (begun.bits * 64 + n % 64) :: decodeFrom none rest := by
  have hn : (UInt8.ofNat (n % 64 + 128)).toNat = n % 64 + 128 := toNat_ofNat_add _ (by omega)
  have hbits : (n % 64 + 128) % 64 = n % 64 := by omega
  rw [decodeFrom_some_last (by rwa [hn]) (by rwa [hn]) hmissing, hn, hbits]

theorem decodeFrom_tail (hmissing : 1 < begun.missing) :
    decodeFrom (some begun) (UInt8.ofNat (n % 64 + 128) :: rest) =
      decodeFrom (some { bits := begun.bits * 64 + n % 64, missing := begun.missing - 1 }) rest := by
  have hn : (UInt8.ofNat (n % 64 + 128)).toNat = n % 64 + 128 := toNat_ofNat_add _ (by omega)
  have hbits : (n % 64 + 128) % 64 = n % 64 := by omega
  rw [decodeFrom_some_more (by rwa [hn]) (by rwa [hn]) hmissing, hn, hbits]

end

end

theorem Bytes.decodeFrom_append {v : Nat} {bytes : List UInt8} (h : Bytes v bytes)
    (hvalid : v.isValidChar) (rest : List UInt8) :
    decodeFrom none (bytes ++ rest) = Char.ofNat v :: decodeFrom none rest := by
  have hrange : v < 0xd800 ∨ 0xdfff < v ∧ v < 0x110000 := hvalid
  cases h with
  | one hv =>
    have hbegin : begin (UInt8.ofNat (v + 0)).toNat = .inl (Char.ofNat (v + 0)) := by
      rw [toNat_ofNat_add _ (by omega), begin, if_pos (by omega)]
    rw [List.singleton_append, decodeFrom_of_begin_inl hbegin, Nat.add_zero]
  | two hlow hv =>
    have hbegin : begin (UInt8.ofNat (v / 64 % 32 + 192)).toNat =
        .inr { bits := (v / 64 % 32 + 192) % 0x20, missing := 1 } := by
      rw [toNat_ofNat_add _ (by omega), begin, if_neg (by omega), if_neg (by omega),
        if_pos (by omega)]
    have hbits : (v / 64 % 32 + 192) % 0x20 * 64 + v % 64 = v := by omega
    rw [List.cons_append, decodeFrom_of_begin_inr hbegin, List.singleton_append,
      decodeFrom_last_tail (by simp) (by simp only; omega) (by simp), hbits]
  | three hlow hv =>
    have hbegin : begin (UInt8.ofNat (v / 4096 % 16 + 224)).toNat =
        .inr { bits := (v / 4096 % 16 + 224) % 0x10, missing := 2,
               low := if v / 4096 % 16 + 224 = 0xe0 then 0xa0 else 0x80,
               high := if v / 4096 % 16 + 224 = 0xed then 0x9f else 0xbf } := by
      rw [toNat_ofNat_add _ (by omega), begin, if_neg (by omega), if_neg (by omega),
        if_neg (by omega), if_pos (by omega)]
    have hbits : ((v / 4096 % 16 + 224) % 0x10 * 64 + v / 64 % 64) * 64 + v % 64 = v := by omega
    have hlow : (if v / 4096 % 16 + 224 = 0xe0 then 0xa0 else 0x80) ≤ v / 64 % 64 + 128 := by
      split <;> omega
    have hhigh : v / 64 % 64 + 128 ≤ if v / 4096 % 16 + 224 = 0xed then 0x9f else 0xbf := by
      split <;> omega
    rw [List.cons_append, decodeFrom_of_begin_inr hbegin, List.cons_append,
      decodeFrom_tail hlow hhigh (by simp), List.singleton_append,
      decodeFrom_last_tail (by simp) (by simp only; omega) (by simp), hbits]
  | four hlow =>
    have hbegin : begin (UInt8.ofNat (v / 262144 % 8 + 240)).toNat =
        .inr { bits := (v / 262144 % 8 + 240) % 8, missing := 3,
               low := if v / 262144 % 8 + 240 = 0xf0 then 0x90 else 0x80,
               high := if v / 262144 % 8 + 240 = 0xf4 then 0x8f else 0xbf } := by
      rw [toNat_ofNat_add _ (by omega), begin, if_neg (by omega), if_neg (by omega),
        if_neg (by omega), if_neg (by omega)]
    have hbits : (((v / 262144 % 8 + 240) % 8 * 64 + v / 4096 % 64) * 64 + v / 64 % 64) * 64 +
        v % 64 = v := by
      omega
    have hlow : (if v / 262144 % 8 + 240 = 0xf0 then 0x90 else 0x80) ≤ v / 4096 % 64 + 128 := by
      split <;> omega
    have hhigh : v / 4096 % 64 + 128 ≤ if v / 262144 % 8 + 240 = 0xf4 then 0x8f else 0xbf := by
      split <;> omega
    rw [List.cons_append, decodeFrom_of_begin_inr hbegin, List.cons_append,
      decodeFrom_tail hlow hhigh (by simp), List.cons_append,
      decodeFrom_tail (by simp) (by simp only; omega) (by simp), List.singleton_append,
      decodeFrom_last_tail (by simp) (by simp only; omega) (by simp), hbits]

theorem decodeFrom_flatMap_utf8EncodeChar (cs : List Char) :
    decodeFrom none (cs.flatMap String.utf8EncodeChar) = cs := by
  induction cs with
  | nil => rfl
  | cons c cs ih =>
    rw [List.flatMap_cons, (bytes_utf8EncodeChar c).decodeFrom_append c.valid, ih, Char.ofNat_toNat]

/-- What is shown of the bytes of a text is the text. -/
theorem shown_encoded (text : String) : shown (encoded text) = text := by
  rw [shown, encoded_eq, decodeFrom_flatMap_utf8EncodeChar, String.ofList_toList]

/-! ### Reading anything -/

/-- A character that is one byte, other than the one with the number zero. -/
def IsAscii (c : Char) : Prop := 0 < c.toNat ∧ c.toNat < 0x80

instance (c : Char) : Decidable (IsAscii c) := inferInstanceAs (Decidable (_ ∧ _))

theorem not_isAscii_ofNat {n : Nat} (h : 0x80 ≤ n) : ¬ IsAscii (Char.ofNat n) := by
  by_cases hvalid : n.isValidChar
  · have hn : (Char.ofNat n).toNat = n := by
      rw [Char.ofNat, dif_pos hvalid]
      rfl
    rw [IsAscii, hn]
    omega
  · rw [Char.ofNat, dif_neg hvalid]
    decide

theorem not_isAscii_replacement : ¬ IsAscii replacement := by decide

/-- Whatever bytes follow, the character that has begun is no plain one. -/
structure Begun.IsWide (begun : Begun) : Prop where
  low : 0x80 ≤ begun.low
  high : begun.high ≤ 0xbf
  wide : 0x80 ≤ (begun.bits * 64 + (begun.low - 0x80)) * 64 ^ (begun.missing - 1)

theorem isWide_of_begin_eq_inr {b : Nat} (hb : b < 256) {begun : Begun} (h : begin b = .inr begun) :
    begun.IsWide := by
  rw [begin] at h
  split at h
  · cases h
  · split at h
    · cases h
    · split at h
      · cases h
        constructor <;> simp only <;> omega
      · split at h <;> cases h
        · constructor <;> simp only <;> split <;> omega
        · constructor <;> simp only <;> split <;> omega

theorem begin_eq_inl {b : Nat} {c : Char} (h : begin b = .inl c) :
    c = replacement ∨ c = Char.ofNat b := by
  rw [begin] at h
  split at h
  · exact .inr (Sum.inl.inj h).symm
  · split at h
    · exact .inl (Sum.inl.inj h).symm
    · split at h
      · cases h
      · split at h <;> cases h

namespace Begun.IsWide

variable {begun : Begun} (h : begun.IsWide) {b : Nat} (hlow : begun.low ≤ b)
  (hhigh : b ≤ begun.high)
include h hlow hhigh

theorem bits_le :
    begun.bits * 64 + (begun.low - 0x80) ≤ begun.bits * 64 + b % 64 := by
  have := h.low
  have := h.high
  omega

theorem le_of_last (hmissing : begun.missing ≤ 1) : 0x80 ≤ begun.bits * 64 + b % 64 := by
  have hwide := h.wide
  rw [Nat.sub_eq_zero_of_le hmissing, Nat.pow_zero, Nat.mul_one] at hwide
  exact Nat.le_trans hwide (h.bits_le hlow hhigh)

theorem step (hmissing : 1 < begun.missing) :
    Begun.IsWide { bits := begun.bits * 64 + b % 64, missing := begun.missing - 1 } where
  low := Nat.le_refl _
  high := Nat.le_refl _
  wide := by
    obtain ⟨more, hmore⟩ := Nat.exists_eq_add_of_le' hmissing
    have hpow : 64 ^ (begun.missing - 1) = 64 * 64 ^ more := by
      rw [hmore, Nat.add_sub_assoc (by omega), Nat.pow_succ, Nat.mul_comm]
    have hwide := Nat.le_trans h.wide (Nat.mul_le_mul_right _ (h.bits_le hlow hhigh))
    have hleft : begun.missing - 1 - 1 = more := by omega
    rw [hpow, ← Nat.mul_assoc] at hwide
    simpa [hleft] using hwide

end Begun.IsWide

/-- A character that has begun ends in one that is no plain one, be it a sign for what is
not valid. -/
theorem exists_not_isAscii_of_begun {begun : Begun} (h : begun.IsWide) (bytes : List UInt8) :
    ∃ c ∈ decodeFrom (some begun) bytes, ¬ IsAscii c := by
  induction bytes generalizing begun with
  | nil => exact ⟨replacement, by simp [decodeFrom], not_isAscii_replacement⟩
  | cons b rest ih =>
    by_cases hrange : begun.low ≤ b.toNat ∧ b.toNat ≤ begun.high
    · obtain ⟨hlow, hhigh⟩ := hrange
      by_cases hlast : begun.missing ≤ 1
      · rw [decodeFrom_some_last hlow hhigh hlast]
        exact ⟨_, List.mem_cons_self, not_isAscii_ofNat (h.le_of_last hlow hhigh hlast)⟩
      · rw [decodeFrom_some_more hlow hhigh (Nat.not_le.1 hlast)]
        exact ih (h.step hlow hhigh (Nat.not_le.1 hlast))
    · rw [decodeFrom_some_other hrange]
      exact ⟨replacement, List.mem_cons_self, not_isAscii_replacement⟩

/-- A byte below the number 128 is a character of its own, so that what stands before it and what
follows are read apart. -/
theorem decodeFrom_append_cons {b : UInt8} (hb : b.toNat < 0x80) {begun? : Option Begun}
    (hwide : ∀ begun ∈ begun?, begun.IsWide) (bytes rest : List UInt8) :
    decodeFrom begun? (bytes ++ b :: rest) =
      decodeFrom begun? bytes ++ Char.ofNat b.toNat :: decodeFrom none rest := by
  have hsingle : decodeFrom none (b :: rest) = Char.ofNat b.toNat :: decodeFrom none rest :=
    decodeFrom_of_begin_inl (by rw [begin, if_pos hb])
  induction bytes generalizing begun? with
  | nil =>
    cases begun? with
    | none => exact hsingle
    | some begun =>
      have hlow := (hwide begun rfl).low
      rw [List.nil_append, decodeFrom_some_other (by omega), hsingle]
      rfl
  | cons b' bytes ih =>
    have hnone : ∀ begun ∈ (none : Option Begun), begun.IsWide := fun _ h => nomatch h
    have hstart : decodeFrom none (b' :: (bytes ++ b :: rest)) =
        decodeFrom none (b' :: bytes) ++ Char.ofNat b.toNat :: decodeFrom none rest := by
      cases hbegin : begin b'.toNat with
      | inl c =>
        rw [decodeFrom_of_begin_inl hbegin, decodeFrom_of_begin_inl hbegin, ih hnone, List.cons_append]
      | inr begun =>
        rw [decodeFrom_of_begin_inr hbegin, decodeFrom_of_begin_inr hbegin, ih fun _ h => ?_]
        cases h
        exact isWide_of_begin_eq_inr b'.toNat_lt hbegin
    rw [List.cons_append]
    cases begun? with
    | none => exact hstart
    | some begun =>
      have hbegun := hwide begun rfl
      by_cases hrange : begun.low ≤ b'.toNat ∧ b'.toNat ≤ begun.high
      · obtain ⟨hlow, hhigh⟩ := hrange
        by_cases hlast : begun.missing ≤ 1
        · rw [decodeFrom_some_last hlow hhigh hlast, decodeFrom_some_last hlow hhigh hlast, ih hnone,
            List.cons_append]
        · have hmore := Nat.not_le.1 hlast
          rw [decodeFrom_some_more hlow hhigh hmore, decodeFrom_some_more hlow hhigh hmore,
            ih fun _ h => ?_]
          cases h
          exact hbegun.step hlow hhigh hmore
      · rw [decodeFrom_some_other hrange, decodeFrom_some_other hrange, hstart, List.cons_append]

/-- Bytes that are shown with nothing but plain characters are these characters. -/
theorem decodeFrom_eq_map_of_isAscii {bytes : List UInt8}
    (h : ∀ c ∈ decodeFrom none bytes, IsAscii c) :
    decodeFrom none bytes = bytes.map fun b => Char.ofNat b.toNat := by
  induction bytes with
  | nil => rfl
  | cons b rest ih =>
    cases hbegin : begin b.toNat with
    | inl c =>
      rw [decodeFrom_of_begin_inl hbegin] at h ⊢
      obtain ⟨hc, hrest⟩ := List.forall_mem_cons.1 h
      rcases begin_eq_inl hbegin with rfl | rfl
      · exact absurd hc not_isAscii_replacement
      · rw [ih hrest, List.map_cons]
    | inr begun =>
      rw [decodeFrom_of_begin_inr hbegin] at h
      obtain ⟨c, hc, hwide⟩ :=
        exists_not_isAscii_of_begun (isWide_of_begin_eq_inr b.toNat_lt hbegin) rest
      exact absurd (h c hc) hwide

/-- A plain character that is shown is among the bytes. -/
theorem exists_byte_of_mem_decodeFrom {c : Char} (hc : IsAscii c) {begun? : Option Begun}
    (hwide : ∀ begun ∈ begun?, begun.IsWide) {bytes : List UInt8}
    (h : c ∈ decodeFrom begun? bytes) : ∃ b ∈ bytes, Char.ofNat b.toNat = c := by
  have hne : c ≠ replacement := by
    rintro rfl
    exact not_isAscii_replacement hc
  induction bytes generalizing begun? with
  | nil => cases begun? <;> simp_all [decodeFrom]
  | cons b rest ih =>
    have hnone : ∀ begun ∈ (none : Option Begun), begun.IsWide := fun _ h => nomatch h
    have hrest {begun? : Option Begun} (hwide : ∀ begun ∈ begun?, begun.IsWide)
        (h : c ∈ decodeFrom begun? rest) : ∃ b' ∈ b :: rest, Char.ofNat b'.toNat = c := by
      obtain ⟨b', hb', heq⟩ := ih hwide h
      exact ⟨b', List.mem_cons_of_mem b hb', heq⟩
    have hstart (h : c ∈ decodeFrom none (b :: rest)) :
        ∃ b' ∈ b :: rest, Char.ofNat b'.toNat = c := by
      cases hbegin : begin b.toNat with
      | inl c' =>
        rw [decodeFrom_of_begin_inl hbegin] at h
        rcases List.mem_cons.1 h with rfl | h
        · exact ⟨b, List.mem_cons_self, ((begin_eq_inl hbegin).resolve_left hne).symm⟩
        · exact hrest hnone h
      | inr begun =>
        rw [decodeFrom_of_begin_inr hbegin] at h
        refine hrest (fun _ h => ?_) h
        cases h
        exact isWide_of_begin_eq_inr b.toNat_lt hbegin
    cases begun? with
    | none => exact hstart h
    | some begun =>
      have hbegun := hwide begun rfl
      by_cases hrange : begun.low ≤ b.toNat ∧ b.toNat ≤ begun.high
      · obtain ⟨hlow, hhigh⟩ := hrange
        by_cases hlast : begun.missing ≤ 1
        · rw [decodeFrom_some_last hlow hhigh hlast] at h
          rcases List.mem_cons.1 h with rfl | h
          · exact absurd hc (not_isAscii_ofNat (hbegun.le_of_last hlow hhigh hlast))
          · exact hrest hnone h
        · rw [decodeFrom_some_more hlow hhigh (Nat.not_le.1 hlast)] at h
          refine hrest (fun _ h => ?_) h
          cases h
          exact hbegun.step hlow hhigh (Nat.not_le.1 hlast)
      · rw [decodeFrom_some_other hrange] at h
        exact hstart ((List.mem_cons.1 h).resolve_left hne)

end Scaffold.Text
