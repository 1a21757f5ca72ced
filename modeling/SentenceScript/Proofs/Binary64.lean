import Mathlib
import SentenceScript.Json.Values

namespace SentenceScript

open Float.Model (Format)
open Float.Model.UnpackedFloat

namespace Decimal

theorem pow2_52 : pow2 52 = 4503599627370496 := rfl

theorem pow2_63 : pow2 63 = 9223372036854775808 := rfl

theorem infinityBits_eq : infinityBits = 9218868437227405312 := rfl

end Decimal

namespace Binary64

open Decimal

section Word

variable (b : BitVec Format.binary64.numBits)

theorem toNat_unpackExponent : (unpackExponent b).toNat = b.toNat / pow2 52 % 2048 := by
  simp [unpackExponent, Nat.shiftRight_eq_div_pow, pow2_52]

theorem unpackExponent_eq_iff : unpackExponent b = -1#11 ↔ infinityBits ≤ b.toNat % pow2 63 := by
  have he := toNat_unpackExponent b
  rw [pow2_52] at he
  rw [infinityBits_eq, pow2_63]
  constructor
  · intro h
    rw [h] at he
    change 2047 = _ at he
    omega
  · intro h
    apply BitVec.eq_of_toNat_eq
    rw [he]
    change _ = 2047
    omega

theorem isFinite_unpack_iff :
    (unpack .binary64 b).isFinite = true ↔ unpackExponent b ≠ -1#11 := by
  unfold unpack
  dsimp only
  split
  · next he =>
      split
      · exact iff_of_false Bool.false_ne_true (not_not_intro he)
      · exact iff_of_false Bool.false_ne_true (not_not_intro he)
  · next he =>
      split
      · split
        · exact iff_of_true rfl he
        · exact iff_of_true rfl he
      · exact iff_of_true rfl he

end Word

def word (x : Float) : BitVec Format.binary64.numBits := x.toModel.toBits.toBitVec

theorem word_inj {x y : Float} (h : word x = word y) : x = y :=
  Float.toBits_inj.1 (UInt64.toBitVec_inj.1 h)

theorem toNat_toBits_ofBits {n : Nat} (hn : n < UInt64.size) (h : n % pow2 63 < infinityBits) :
    (Float.ofBits (.ofNat n)).toBits.toNat = n := by
  let b : BitVec Format.binary64.numBits := (UInt64.ofNat n).toBitVec
  have hb : b.toNat = n := UInt64.toNat_ofNat_of_lt' hn
  have hv : Format.binary64.Valid b := by
    refine ⟨fun he => ?_⟩
    have hi := (unpackExponent_eq_iff b).1 he
    rw [hb] at hi
    omega
  have hw : word (Float.ofBits (.ofNat n)) = b := pack_unpack_of_valid hv
  exact (congrArg BitVec.toNat hw).trans hb

theorem isFinite_eq (x : Float) : x.isFinite = (unpack .binary64 (word x)).isFinite := rfl

theorem isFinite_iff (x : Float) : x.isFinite = true ↔ bitsOf x < infinityBits := by
  rw [isFinite_eq, isFinite_unpack_iff, ← Nat.not_le]
  exact not_congr (unpackExponent_eq_iff (word x))

/-- There are three numbers that are not finite, since all that is not a number is one. -/
theorem eq_of_not_finite {x : Float} (h : x.isFinite = false) :
    x = Value.nan ∨ x = Value.infinity ∨ x = -Value.infinity := by
  have hp := packComponents_unpackSign_unpackExponent_unpackMantissa (word x)
  have he : unpackExponent (word x) = -1#11 := by
    rw [isFinite_eq, Bool.eq_false_iff] at h
    exact not_not.1 fun hne => h ((isFinite_unpack_iff _).2 hne)
  by_cases hm : unpackMantissa (word x) = 0#52
  · rw [he, hm] at hp
    cases hs : Sign.ofBitVec (unpackSign (word x)) with
    | positive => rw [hs] at hp; exact .inr (.inl (word_inj hp.symm))
    | negative => rw [hs] at hp; exact .inr (.inr (word_inj hp.symm))
  · exact .inl (word_inj (x.toModel.valid.eq_packedNaN he hm))

theorem not_nan_of_finite {x : Float} (hx : x.isFinite = true) :
    x.isNaN = false ∧ x.isInf = false := by
  rw [isFinite_eq] at hx
  have hn : x.isNaN = (unpack .binary64 (word x)).isNaN := rfl
  have hi : x.isInf = (unpack .binary64 (word x)).isInf := rfl
  rw [hn, hi]
  cases h : unpack .binary64 (word x) with
  | notANumber => rw [h] at hx; cases hx
  | infinity sign => rw [h] at hx; cases hx
  | zero sign => exact ⟨rfl, rfl⟩
  | finite sign m e hm => exact ⟨rfl, rfl⟩

end Binary64

end SentenceScript
