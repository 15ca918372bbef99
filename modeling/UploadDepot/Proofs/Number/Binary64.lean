/-
Doubles by their parts, against the model of them that comparisons are made in.

`parts` reads the fields of the bits; the model unpacks them
(`parts_eq_ofUnpacked`). So a comparison with zero, which the model makes,
is a question of the parts: not at most zero are the doubles above zero,
positive infinity, and what is not a number (`not_le_zero_iff`). A whole
number that has a nearest double has a finite one (`parts_of_ofInt?`).
-/
import Mathlib
import UploadDepot.Number.Binary64

namespace UploadDepot.Binary64

open Float.Model
open Float.Model.UnpackedFloat

/-! ## The fields of the bits -/

section Fields

variable (b : BitVec Format.binary64.numBits)

theorem toNat_unpackExponent : (unpackExponent b).toNat = b.toNat / exponentUnit % 2048 := by
  rw [unpackExponent_def, BitVec.extractLsb'_toNat, Nat.shiftRight_eq_div_pow]
  rfl

theorem toNat_unpackMantissa : (unpackMantissa b).toNat = b.toNat % exponentUnit := by
  rw [unpackMantissa_def, BitVec.extractLsb'_toNat, Nat.shiftRight_zero]
  rfl

theorem ofBitVec_unpackSign :
    Sign.ofBitVec (unpackSign b) = if signBit ≤ b.toNat then .negative else .positive := by
  have hfield : (unpackSign b).toNat = b.toNat / signBit % 2 := by
    rw [unpackSign_def, BitVec.extractLsb'_toNat, Nat.shiftRight_eq_div_pow]
    rfl
  have hlt : b.toNat < 2 ^ 64 := b.isLt
  have hzero : unpackSign b = 0#1 ↔ ¬ signBit ≤ b.toNat := by
    rw [BitVec.toNat_eq, hfield, BitVec.toNat_ofNat, signBit]
    omega
  rw [Sign.ofBitVec]
  by_cases hsign : signBit ≤ b.toNat
  · rw [if_pos hsign, if_neg fun h => hzero.1 h hsign]
  · rw [if_neg hsign, if_pos (hzero.2 hsign)]

theorem unpackExponent_eq_last : unpackExponent b = -1#11 ↔ b.toNat / exponentUnit % 2048 = 2047 := by
  rw [BitVec.toNat_eq, toNat_unpackExponent]
  rfl

theorem unpackExponent_eq_zero : unpackExponent b = 0#11 ↔ b.toNat / exponentUnit % 2048 = 0 := by
  rw [BitVec.toNat_eq, toNat_unpackExponent]
  rfl

theorem unpackMantissa_eq_zero : unpackMantissa b = 0#52 ↔ b.toNat % exponentUnit = 0 := by
  rw [BitVec.toNat_eq, toNat_unpackMantissa]
  rfl

end Fields

/-! ## The parts of a double -/

/-- A sign is the one below zero. -/
def isNegative : Sign → Bool
  | .negative => true
  | .positive => false

/-- The parts of an unpacked double. -/
def Parts.ofUnpacked : UnpackedFloat → Parts
  | .notANumber => .nan
  | .infinity s => .infinite (isNegative s)
  | .zero s => .finite (isNegative s) 0 (-1074)
  | .finite s magnitude exponent _ => .finite (isNegative s) magnitude exponent

theorem isNegative_unpackSign (b : BitVec Format.binary64.numBits) :
    isNegative (Sign.ofBitVec (unpackSign b)) = decide (signBit ≤ b.toNat) := by
  rw [ofBitVec_unpackSign]
  split
  · next hsign => exact (decide_eq_true hsign).symm
  · next hsign => exact (decide_eq_false hsign).symm

/-- The parts of unpacked bits, in the fields of the bits. -/
theorem ofUnpacked_unpack (b : BitVec Format.binary64.numBits) :
    Parts.ofUnpacked (UnpackedFloat.unpack Format.binary64 b) =
      if b.toNat / exponentUnit % 2048 = 2047 then
        if b.toNat % exponentUnit = 0 then .infinite (decide (signBit ≤ b.toNat)) else .nan
      else if b.toNat / exponentUnit % 2048 = 0 then
        .finite (decide (signBit ≤ b.toNat)) (b.toNat % exponentUnit) (-1074)
      else
        .finite (decide (signBit ≤ b.toNat)) (exponentUnit + b.toNat % exponentUnit)
          (((b.toNat / exponentUnit % 2048 : Nat) : Int) - 1075) := by
  rw [← isNegative_unpackSign, UnpackedFloat.unpack]
  dsimp only
  split
  · next hlast =>
    rw [if_pos ((unpackExponent_eq_last b).1 hlast)]
    split
    · next hzero => rw [if_pos ((unpackMantissa_eq_zero b).1 hzero)]; rfl
    · next hzero => rw [if_neg (mt (unpackMantissa_eq_zero b).2 hzero)]; rfl
  · next hlast =>
    rw [if_neg (mt (unpackExponent_eq_last b).2 hlast)]
    split
    · next hfirst =>
      rw [if_pos ((unpackExponent_eq_zero b).1 hfirst)]
      split
      · next hzero => rw [(unpackMantissa_eq_zero b).1 hzero]; rfl
      · next hzero =>
        rw [Parts.ofUnpacked, hfirst, toNat_unpackMantissa]
        rfl
    · next hfirst =>
      have hmantissa : (1#1 ++ unpackMantissa b).toNat = exponentUnit + b.toNat % exponentUnit := by
        rw [BitVec.toNat_append, ← toNat_unpackMantissa]
        exact (Nat.two_pow_add_eq_or_of_lt (unpackMantissa b).isLt 1).symm
      rw [if_neg (mt (unpackExponent_eq_zero b).2 hfirst), Parts.ofUnpacked, toNat_unpackExponent,
        hmantissa]
      rfl

theorem parts_eq_ofUnpacked (x : Float) : parts x = Parts.ofUnpacked x.toModel.unpack :=
  (ofUnpacked_unpack x.toModel.toBits.toBitVec).symm

/-! ## Comparison with zero -/

theorem unpack_zero : (0 : Float).toModel.unpack = .zero .positive := rfl

/-- Not at most zero is a double above zero, and one that is not a number. -/
theorem not_le_zero_iff (x : Float) :
    ¬ x ≤ 0 ↔ parts x = .nan ∨ parts x = .infinite false ∨
      ∃ magnitude exponent, 0 < magnitude ∧ parts x = .finite false magnitude exponent := by
  have hle : x ≤ 0 ↔ x.toModel.unpack.le (.zero .positive) = true := by
    rw [← unpack_zero]
    exact decide_eq_true_iff
  rw [hle, parts_eq_ofUnpacked]
  cases x.toModel.unpack with
  | notANumber => simp [Parts.ofUnpacked, UnpackedFloat.le, UnpackedFloat.compare]
  | infinity s =>
    cases s <;> simp [Parts.ofUnpacked, isNegative, UnpackedFloat.le, UnpackedFloat.compare]
  | zero s =>
    cases s <;> simp [Parts.ofUnpacked, isNegative, UnpackedFloat.le, UnpackedFloat.compare]
  | finite s magnitude exponent hpos =>
    cases s <;> simp [Parts.ofUnpacked, isNegative, UnpackedFloat.le, UnpackedFloat.compare, hpos]

/-! ## The whole part -/

theorem truncate_of_nan {x : Float} (h : parts x = .nan) : truncate x = .error .nan := by
  rw [truncate, h]

theorem truncate_of_infinite {x : Float} {negative : Bool} (h : parts x = .infinite negative) :
    truncate x = .error .infinite := by
  rw [truncate, h]

/-- Above zero a finite double has a whole part, which is not below zero. -/
theorem truncate_of_finite {x : Float} {magnitude : Nat} {exponent : Int}
    (h : parts x = .finite false magnitude exponent) : ∃ whole, truncate x = .ok whole ∧ 0 ≤ whole := by
  rw [truncate, h]
  exact ⟨_, rfl, Int.natCast_nonneg _⟩

/-! ## Whole numbers as doubles -/

/-- Bits with an exponent field that is not all ones are kept as they are. -/
theorem toBits_ofBits {bits : UInt64} (h : bits.toNat / exponentUnit % 2048 ≠ 2047) :
    (Float.ofBits bits).toBits = bits := by
  have hlast := mt (unpackExponent_eq_last bits.toBitVec).1 h
  have hnumber : ¬ @isNaNBits Format.binary64 bits.toBitVec = true := by
    rw [isNaNBits, decide_eq_true_iff]
    exact fun hnan => hlast hnan.1
  have hpacked := @pack_unpack Format.binary64 bits.toBitVec (by decide)
  rw [if_neg hnumber] at hpacked
  exact UInt64.toBitVec_inj.1 hpacked

theorem parts_ofBits {bits : UInt64} (h : bits.toNat / exponentUnit % 2048 ≠ 2047) :
    ∃ negative magnitude exponent, parts (Float.ofBits bits) = .finite negative magnitude exponent := by
  rw [parts, toBits_ofBits h, if_neg h]
  split
  · exact ⟨_, _, _, rfl⟩
  · exact ⟨_, _, _, rfl⟩

/-- A whole number that is not beyond the largest double has a finite double nearest to it. -/
theorem parts_of_ofInt? {n : Int} {x : Float} (h : ofInt? n = some x) :
    ∃ negative magnitude exponent, parts x = .finite negative magnitude exponent := by
  have hle : nearestBits n.natAbs 1 ≤ infinityBits := by
    rw [nearestBits]
    split
    · exact Nat.zero_le _
    · exact Nat.min_le_right _ _
  rw [ofInt?] at h
  split at h
  · cases h
  · next hne =>
    cases h
    refine parts_ofBits ?_
    have hlt : nearestBits n.natAbs 1 < 2047 * exponentUnit := Nat.lt_of_le_of_ne hle hne
    rw [UInt64.toNat_ofNat']
    simp only [signBit, exponentUnit] at hlt ⊢
    split <;> omega

end UploadDepot.Binary64
