import Arinc615a.Files.Codec
import Mathlib.Data.List.TakeWhile

/-!
# Strings of fixed and variable length

`String.cpp`: what is read back from a string that has been written, with or without padding.
-/

open Reasoning

namespace Arinc615a.Files

/-- The check of `String_encode`. -/
def StringTooLong (s : Text) (fixedLength : UInt8) : Prop :=
  254 ≤ s.length ∨ (fixedLength ≠ 0 ∧ s ≠ [] ∧ fixedLength.toNat ≤ s.length)

/-- The length byte and the padding of a string that is not too long. -/
theorem stringEncode_padded (raw : RawDataCodec) {s : Text} {fixedLength : UInt8}
    (h : ¬StringTooLong s fixedLength) :
    ∃ (length : UInt8) (padding : Nat), length.toNat = s.length + padding ∧
      (s ≠ [] → 0 < padding) ∧
      stringEncode raw s fixedLength =
        .ok (raw.uint8.encode length ++ (s ++ List.replicate padding 0)) := by
  obtain ⟨hshort, hfixed⟩ := not_or.mp h
  unfold stringEncode
  by_cases hzero : fixedLength = 0
  · subst hzero
    cases s with
    | nil => exact ⟨0, 0, rfl, fun hne => absurd rfl hne, by simp⟩
    | cons c s =>
      have hsize : ((c :: s).length + 1).toUInt8.toNat = (c :: s).length + 1 := by
        change (UInt8.ofNat _).toNat = _
        rw [UInt8.toNat_ofNat', Nat.mod_eq_of_lt (by omega)]
      refine ⟨((c :: s).length + 1).toUInt8, 1, hsize, fun _ => Nat.one_pos, ?_⟩
      have hfits : ¬255 ≤ (c :: s).length + 1 := by omega
      have hpad : (c :: s).length + 1 - (c :: s).length = 1 := by omega
      simp only [List.isEmpty_cons, Bool.false_eq_true, if_false, ne_eq, not_true_eq_false,
        false_and, or_false, hfits, hsize, hpad, List.append_assoc]
  · cases s with
    | nil =>
      refine ⟨fixedLength, fixedLength.toNat, by simp, fun hne => absurd rfl hne, ?_⟩
      simp [hzero]
    | cons c s =>
      have hroom : (c :: s).length < fixedLength.toNat :=
        Nat.not_le.mp fun hle => hfixed ⟨hzero, by simp, hle⟩
      refine ⟨fixedLength, fixedLength.toNat - (c :: s).length, by omega, fun _ => by omega, ?_⟩
      have hfits : ¬255 ≤ (c :: s).length + 1 := by omega
      have hpadded : ¬fixedLength.toNat < (c :: s).length + 1 := by omega
      simp only [List.isEmpty_cons, Bool.false_eq_true, if_false, ne_eq, hzero, not_false_eq_true,
        if_true, true_and, hfits, hpadded, or_self, List.append_assoc]

theorem stringEncode_tooLong (raw : RawDataCodec) {s : Text} {fixedLength : UInt8}
    (h : StringTooLong s fixedLength) :
    stringEncode raw s fixedLength = .error ⟨"string too long"⟩ := by
  have hne : s ≠ [] := by
    rintro rfl
    rcases h with hlong | ⟨-, hempty, -⟩
    · exact absurd hlong (by decide)
    · exact hempty rfl
  have hsize : s.isEmpty = false := List.isEmpty_eq_false_iff.mpr hne
  unfold stringEncode
  simp only [hsize, Bool.false_eq_true, if_false]
  refine if_pos ?_
  rcases h with hlong | ⟨hzero, -, hle⟩
  · exact .inl (by omega)
  · exact .inr ⟨hzero, by omega⟩

/-- What is read back is the string up to its first NUL, whatever the padding. -/
theorem stringDecode_stringEncode (raw : RawDataCodec) {s : Text} {fixedLength : UInt8} {w : Bytes}
    (h : stringEncode raw s fixedLength = .ok w) (rest : Bytes) :
    stringDecode raw (w ++ rest) = .ok (s.takeWhile (· ≠ 0), rest) := by
  by_cases hlong : StringTooLong s fixedLength
  · rw [stringEncode_tooLong raw hlong] at h
    cases h
  obtain ⟨length, padding, hlength, hpadding, hencode⟩ := stringEncode_padded raw hlong
  rw [hencode] at h
  cases h
  have hbody : (s ++ List.replicate padding 0).length = length.toNat := by
    rw [List.length_append, List.length_replicate, hlength]
  rw [List.append_assoc, stringDecode_cons, List.take_left' hbody, List.drop_left' hbody,
    if_neg (by rw [List.length_append, hbody]; omega)]
  by_cases hzero : length = 0
  · -- the length byte stands alone
    subst hzero
    have hnone : s.length + padding = 0 := hlength.symm
    obtain rfl : s = [] := List.length_eq_zero_iff.mp (by omega)
    obtain rfl : padding = 0 := by simpa using hnone
    rfl
  · have hpos : 0 < padding := by
      by_cases hne : s = []
      · have hnat : length.toNat ≠ 0 := fun h => hzero (UInt8.toNat_inj.mp h)
        rw [hne, List.length_nil] at hlength
        omega
      · exact hpadding hne
    obtain ⟨k, rfl⟩ := Nat.exists_eq_add_of_lt hpos
    have hterminated : (0 : UInt8) ∈ s ++ List.replicate (0 + k + 1) 0 := by
      simp
    rw [if_neg hzero, if_pos hterminated]
    congr 2
    -- the padding starts with a NUL, so nothing of it is read
    rw [List.replicate_succ, List.takeWhile_append]
    split
    case isTrue hall =>
      rw [List.takeWhile_cons_of_neg (by simp), List.append_nil,
        (List.takeWhile_prefix _).eq_of_length hall]
    case isFalse => rfl

/-- The string comes back, with what follows it left over, whenever it is encoded at all; and a
string with a NUL is not encoded. -/
def StringComesBack (raw : RawDataCodec) (s : Text) (fixedLength : UInt8) : Prop :=
  (∀ w, stringEncode raw s fixedLength = .ok w →
    ∀ rest, stringDecode raw (w ++ rest) = .ok (s, rest)) ∧
  (0 ∈ s → ∃ e, stringEncode raw s fixedLength = .error e)

/-- A string with a NUL is rejected only for its length. -/
theorem string_comesBack_iff (raw : RawDataCodec) (s : Text) (fixedLength : UInt8) :
    StringComesBack raw s fixedLength ↔
      (0 ∈ s → 254 ≤ s.length ∨ (fixedLength ≠ 0 ∧ fixedLength.toNat ≤ s.length)) := by
  constructor
  · rintro ⟨-, hrejected⟩ hnul
    obtain ⟨e, he⟩ := hrejected hnul
    by_contra hfits
    have hshort : ¬StringTooLong s fixedLength := fun hlong =>
      hfits (hlong.imp_right fun h => ⟨h.1, h.2.2⟩)
    obtain ⟨_, _, -, -, hencode⟩ := stringEncode_padded raw hshort
    rw [hencode] at he
    cases he
  · intro hlong
    have htooLong : 0 ∈ s → StringTooLong s fixedLength := fun hnul =>
      (hlong hnul).imp_right fun h => ⟨h.1, List.ne_nil_of_mem hnul, h.2⟩
    refine ⟨fun w hencode rest => ?_, fun hnul => ⟨_, stringEncode_tooLong raw (htooLong hnul)⟩⟩
    have hnul : 0 ∉ s := by
      intro hnul
      rw [stringEncode_tooLong raw (htooLong hnul)] at hencode
      cases hencode
    have hwhole : s.takeWhile (· ≠ 0) = s := by
      rw [List.takeWhile_eq_self_iff]
      intro c hc
      simpa using fun h : c = 0 => hnul (h ▸ hc)
    rw [stringDecode_stringEncode raw hencode, hwhole]

/-- The string A, NUL, B is written in full, and A alone is read back. -/
theorem string_cut_at_nul :
    stringEncode .bigEndian [0x41, 0, 0x42] = .ok [4, 0x41, 0, 0x42, 0] ∧
      stringDecode .bigEndian [4, 0x41, 0, 0x42, 0] = .ok ([0x41], []) ∧
      ¬StringComesBack .bigEndian [0x41, 0, 0x42] 0 := by
  refine ⟨by decide, by decide, fun h => ?_⟩
  have hback := h.1 [4, 0x41, 0, 0x42, 0] (by decide) []
  exact absurd hback (by decide)

end Arinc615a.Files
