import Mathlib.Data.String.Basic

/-!
# The bytes of a text

Every offset in this library counts the bytes of the UTF-8 form of a text. Scanning goes character
by character, so what a list of characters takes is measured by `String.utf8Len`.

A position counts bytes too and may fall inside a character, where no text ends. What stands before
such a position is a text's bytes cut short, and that is a list of bytes and no string.

Newlines can be counted in it all the same. Every character but the newline is encoded without
the newline's byte (`count_encode`), so a text has as many of these bytes as newlines.
-/

namespace MiniLexer.Text

theorem utf8Len_singleton (c : Char) : String.utf8Len [c] = c.utf8Size := Nat.zero_add _

/-- An offset moves behind a text as it moves behind its first character and then its others. -/
theorem add_utf8Len_cons (k : Nat) (c : Char) (cs : List Char) :
    k + String.utf8Len (c :: cs) = k + c.utf8Size + String.utf8Len cs := by
  rw [String.utf8Len_cons, Nat.add_comm (String.utf8Len cs), Nat.add_assoc]

theorem utf8Len_pos {cs : List Char} (h : cs ≠ []) : 0 < String.utf8Len cs :=
  Nat.pos_of_ne_zero (mt String.utf8Len_eq_zero.mp h)

theorem utf8Len_replicate {c : Char} (hc : c.utf8Size = 1) (n : Nat) :
    String.utf8Len (List.replicate n c) = n := by
  induction n with
  | zero => rfl
  | succ n ih => rw [List.replicate_succ, String.utf8Len_cons, ih, hc]

/-- The bytes of a text in its UTF-8 form. -/
def bytes (s : String) : List UInt8 := s.toByteArray.data.toList

/-- The one byte of a newline. -/
def newlineByte : UInt8 := 10

theorem length_bytes (s : String) : (bytes s).length = s.utf8ByteSize := by
  rw [bytes, Array.length_toList, ByteArray.size_data]
  rfl

@[simp] theorem bytes_append (s t : String) : bytes (s ++ t) = bytes s ++ bytes t := by
  rw [bytes, String.toByteArray_append, ByteArray.toList_data_append]
  rfl

theorem bytes_eq_flatMap (s : String) : bytes s = s.toList.flatMap String.utf8EncodeChar := by
  rw [bytes, ← String.utf8Encode_toList, List.utf8Encode, List.data_toByteArray]

/-- A character that is not ASCII has no byte below 128. -/
theorem le_toNat_of_mem_encode {c : Char} (hc : 127 < c.val.toNat) :
    ∀ b ∈ String.utf8EncodeChar c, 128 ≤ b.toNat := by
  have hbyte : ∀ n, 128 ≤ n → n < 256 → 128 ≤ (UInt8.ofNat n).toNat := by
    intro n hle hlt
    rwa [UInt8.toNat_ofNat', Nat.mod_eq_of_lt hlt]
  unfold String.utf8EncodeChar
  rw [if_neg (Nat.not_le.mpr hc)]
  split
  · simp only [List.forall_mem_cons, List.not_mem_nil, false_imp_iff, implies_true]
    exact ⟨hbyte _ (by omega) (by omega), hbyte _ (by omega) (by omega), trivial⟩
  · split
    · simp only [List.forall_mem_cons, List.not_mem_nil, false_imp_iff, implies_true]
      exact ⟨hbyte _ (by omega) (by omega), hbyte _ (by omega) (by omega),
        hbyte _ (by omega) (by omega), trivial⟩
    · simp only [List.forall_mem_cons, List.not_mem_nil, false_imp_iff, implies_true]
      exact ⟨hbyte _ (by omega) (by omega), hbyte _ (by omega) (by omega),
        hbyte _ (by omega) (by omega), hbyte _ (by omega) (by omega), trivial⟩

theorem count_encode (c : Char) :
    (String.utf8EncodeChar c).count newlineByte = if c = '\n' then 1 else 0 := by
  by_cases hc : 127 < c.val.toNat
  · have hne : c ≠ '\n' := by
      rintro rfl
      exact absurd hc (by decide)
    rw [if_neg hne, List.count_eq_zero]
    intro hmem
    exact absurd (le_toNat_of_mem_encode hc _ hmem) (by decide)
  · have hle := Nat.not_lt.mp hc
    have hbytes : String.utf8EncodeChar c = [UInt8.ofNat c.val.toNat] := if_pos hle
    have hiff : UInt8.ofNat c.val.toNat = newlineByte ↔ c = '\n' := by
      rw [← UInt8.toNat_inj, UInt8.toNat_ofNat', Nat.mod_eq_of_lt (by omega), ← Char.toNat_inj]
      exact Iff.rfl
    rw [hbytes, List.count_singleton]
    simp only [beq_iff_eq, hiff]

theorem count_bytes (s : String) : (bytes s).count newlineByte = s.toList.count '\n' := by
  rw [bytes_eq_flatMap]
  induction s.toList with
  | nil => rfl
  | cons c cs ih =>
      rw [List.flatMap_cons, List.count_append, ih, count_encode, List.count_cons, Nat.add_comm]
      simp

end MiniLexer.Text
