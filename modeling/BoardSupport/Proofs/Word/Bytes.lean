import BoardSupport.Word
import Mathlib.Data.List.Basic

/-! A word says the same as its bits and as its bytes. -/
namespace BoardSupport.Word

theorem bit_bne_zero (word : UInt32) {n : UInt32} (inside : n < 32) :
    (bit word n != 0) = word.toNat.testBit n.toNat := by
  have place : n.toNat % 32 = n.toNat := Nat.mod_eq_of_lt (UInt32.lt_iff_toNat_lt.mp inside)
  rw [bit, if_pos inside, Nat.testBit, Nat.and_comm, bne, bne]
  congr 1
  rw [Bool.eq_iff_iff, beq_iff_eq, beq_iff_eq, ← UInt32.toNat_inj, UInt32.toNat_and, UInt32.toNat_shiftRight, place]
  rfl

theorem ofLittleEndian_bytes (word : UInt32) :
    ofLittleEndian word.toUInt8 (word >>> 8).toUInt8 (word >>> 16).toUInt8 (word >>> 24).toUInt8 =
      word := by
  apply UInt32.eq_of_toBitVec_eq
  simp only [ofLittleEndian, UInt32.toBitVec_or, UInt32.toBitVec_shiftLeft,
    UInt8.toBitVec_toUInt32, UInt32.toBitVec_toUInt8, UInt32.toBitVec_shiftRight]
  ext i hi
  have range : i < 8 ∨ 8 ≤ i ∧ i < 16 ∨ 16 ≤ i ∧ i < 24 ∨ 24 ≤ i := by omega
  -- Bit `i` comes from one byte only; shifts and casts blank it in the others.
  rcases range with h | h | h | h <;> simp
  all_goals grind

theorem toLittleEndian_ofLittleEndian (b0 b1 b2 b3 : UInt8) :
    toLittleEndian (ofLittleEndian b0 b1 b2 b3) = [b0, b1, b2, b3] := by
  simp only [toLittleEndian, List.cons.injEq, and_true]
  refine ⟨?_, ?_, ?_, ?_⟩
  all_goals
    apply UInt8.eq_of_toBitVec_eq
    simp only [ofLittleEndian, UInt32.toBitVec_or, UInt32.toBitVec_shiftLeft,
      UInt8.toBitVec_toUInt32, UInt32.toBitVec_toUInt8, UInt32.toBitVec_shiftRight]
    ext i hi
    simp
  all_goals grind

/-- The first of four bytes in big-endian order holds the top bits. -/
theorem ofBigEndian_top (b0 b1 b2 b3 : UInt8) {i : Nat} (inside : i < 8) :
    (ofBigEndian b0 b1 b2 b3).toBitVec.getLsbD (24 + i) = b0.toBitVec.getLsbD i := by
  simp only [ofBigEndian, ofLittleEndian, UInt32.toBitVec_or, UInt32.toBitVec_shiftLeft,
    UInt8.toBitVec_toUInt32]
  simp
  grind

end BoardSupport.Word
