import SentenceScript.Proofs.Rounding

namespace SentenceScript

open Float.Model (Format)
open Float.Model.UnpackedFloat

namespace Binary64

open Decimal

theorem toNat_unpackMantissa (b : BitVec Format.binary64.numBits) :
    (unpackMantissa b).toNat = b.toNat % pow2 52 := by
  simp [unpackMantissa, pow2_52]

def isZero : Float.Model.UnpackedFloat → Bool
  | .zero _ => true
  | _ => false

theorem isZero_unpack_iff (b : BitVec Format.binary64.numBits) :
    isZero (unpack .binary64 b) = true ↔
      (unpackExponent b).toNat = 0 ∧ (unpackMantissa b).toNat = 0 := by
  have hzero {n : Nat} (v : BitVec n) : v = 0#n ↔ v.toNat = 0 := by
    rw [← BitVec.toNat_inj, BitVec.toNat_ofNat, Nat.zero_mod]
  unfold unpack
  dsimp only
  split
  · next he =>
      have hne : (unpackExponent b).toNat ≠ 0 := by rw [he]; decide
      refine iff_of_false ?_ fun h => hne h.1
      split <;> exact Bool.false_ne_true
  · split
    · next he =>
        split
        · next hm => exact iff_of_true rfl ⟨(hzero _).1 he, (hzero _).1 hm⟩
        · next hm => exact iff_of_false Bool.false_ne_true fun h => hm ((hzero _).2 h.2)
    · next he => exact iff_of_false Bool.false_ne_true fun h => he ((hzero _).2 h.1)

theorem beq_zero_eq (x : Float) : (x == 0) = isZero (unpack .binary64 (word x)) := by
  have h0 : unpack .binary64 (word 0) = .zero .positive := by rfl
  change Float.Model.UnpackedFloat.beq (unpack .binary64 (word x)) (unpack .binary64 (word 0)) = _
  rw [h0]
  cases unpack .binary64 (word x) with
  | infinity sign | finite sign => cases sign <;> rfl
  | notANumber | zero => rfl

/-- Zero is equal to itself with either sign, and to no other number. -/
theorem beq_zero_iff (x : Float) : (x == 0) = true ↔ bitsOf x = 0 := by
  have hb : bitsOf x = (word x).toNat % pow2 63 := rfl
  rw [beq_zero_eq, isZero_unpack_iff, toNat_unpackExponent, toNat_unpackMantissa, hb, pow2_52,
    pow2_63]
  omega

end Binary64

namespace Decimal

theorem roundDiv_eq_zero_iff {num den : Nat} (hd : 0 < den) :
    roundDiv num den = 0 ↔ 2 * num ≤ den := by
  have hdiv := Nat.div_add_mod num den
  have hmod := Nat.mod_lt num hd
  unfold roundDiv
  dsimp only
  constructor
  · intro h
    split at h
    · exact absurd h (Nat.succ_ne_zero _)
    · rw [h] at hdiv
      omega
  · intro h
    have hq : num / den = 0 := Nat.div_eq_of_lt (by omega)
    rw [hq] at hdiv ⊢
    exact if_neg (by omega)

theorem two_mul_pow2_le_iff (num : Nat) {den : Nat} (hd : 0 < den) (k : Nat) :
    2 * (num * pow2 k) ≤ den ↔ (num : ℚ) / den ≤ 2 ^ (-(k + 1 : ℤ)) := by
  have hden : (0 : ℚ) < den := by exact_mod_cast hd
  have hpow : (0 : ℚ) < 2 ^ (k + 1) := by positivity
  rw [zpow_neg, ← Nat.cast_succ, zpow_natCast, div_le_iff₀ hden, ← div_eq_inv_mul, le_div_iff₀ hpow,
    pow_succ', mul_left_comm, ← cast_pow2]
  exact_mod_cast Iff.rfl

/-- Half of the least positive number, and what is below, rounds to zero. -/
theorem ratioBits_eq_zero_iff {num den : Nat} (hd : 0 < den) :
    ratioBits num den = 0 ↔ (num : ℚ) / den ≤ 2 ^ (-1075 : ℤ) := by
  have hhalf := two_mul_pow2_le_iff num hd 1074
  unfold ratioBits
  split
  · next hn =>
      rw [hn, Nat.cast_zero, zero_div]
      exact iff_of_true rfl (two_zpow_pos _).le
  · next hn =>
      dsimp only
      by_cases hbit : leadingBit num den ≤ -1022
      · have hunit : max (leadingBit num den - 52) (-1074) = -1074 := by omega
        rw [hunit]
        change min (0 * pow2 52 + roundDiv (num * pow2 1074) (den * 1)) infinityBits = 0 ↔ _
        rw [Nat.zero_mul, Nat.zero_add, Nat.mul_one, Nat.min_eq_zero_iff, or_iff_left (by decide),
          roundDiv_eq_zero_iff hd]
        exact hhalf
      · -- The exponent field is not zero, and the quotient is far above.
        refine iff_of_false ?_ fun h => ?_
        · rw [Nat.min_eq_zero_iff, or_iff_left (by decide), pow2_52]
          omega
        · have hle := (leadingBit_spec hn hd.ne').1.trans h
          rw [zpow_le_zpow_iff_right₀ one_lt_two] at hle
          omega

theorem magnitudeBits_eq_zero_iff (digits : Nat) (exponent : ℤ) :
    magnitudeBits digits exponent = 0 ↔ (digits : ℚ) * 10 ^ exponent ≤ 2 ^ (-1075 : ℤ) := by
  unfold magnitudeBits
  split
  · next hz =>
      rw [hz, Nat.cast_zero, zero_mul]
      exact iff_of_true rfl (two_zpow_pos _).le
  · next hz =>
      split
      · next he =>
          have hdigits : (1 : ℚ) ≤ digits := by exact_mod_cast Nat.pos_of_ne_zero hz
          have hpow : (1 : ℚ) ≤ 10 ^ exponent := one_le_zpow₀ (by norm_num) (by omega)
          have hlt : (2 : ℚ) ^ (-1075 : ℤ) < 1 := zpow_lt_one_of_neg₀ one_lt_two (by norm_num)
          exact iff_of_false (by decide)
            (not_le.2 (hlt.trans_le (one_le_mul_of_one_le_of_one_le hdigits hpow)))
      · split
        · next he =>
            refine iff_of_true rfl ((mul_ten_zpow_le (by omega)).trans ?_)
            exact (zpow_le_zpow_iff_right₀ one_lt_two).2 (by omega)
        · have hpos : 0 < pow10 (-exponent).toNat := Nat.pow_pos (by norm_num)
          rw [ratioBits_eq_zero_iff hpos, ratio_eq]

theorem magnitudeBits_le (digits : Nat) (exponent : ℤ) :
    magnitudeBits digits exponent ≤ infinityBits := by
  unfold magnitudeBits ratioBits
  dsimp only
  split_ifs
  exacts [Nat.zero_le _, le_rfl, Nat.zero_le _, Nat.zero_le _, Nat.min_le_right _ _]

/-- A decimal reads as zero, of either sign, if it is at most half of the least positive number. -/
theorem toFloat_beq_zero_iff (d : Decimal) :
    (d.toFloat == 0) = true ↔ d.magnitude ≤ 2 ^ (-1075 : ℤ) := by
  rcases (magnitudeBits_le d.digits d.exponent).lt_or_eq with hlt | hinf
  · rw [Binary64.beq_zero_iff, bitsOf_toFloat d hlt, magnitudeBits_eq_zero_iff, magnitude]
  · refine iff_of_false ?_ fun h => ?_
    · rw [toFloat, hinf]
      cases d.negative with
      | true | false => decide +kernel
    · cases hinf.symm.trans ((magnitudeBits_eq_zero_iff _ _).2 h)

end Decimal

end SentenceScript
