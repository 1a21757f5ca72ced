import SentenceScript.Proofs.Binary64

namespace SentenceScript.Decimal

theorem cast_pow2 (k : Nat) : (pow2 k : ℚ) = 2 ^ k := Nat.cast_pow 2 k

theorem cast_pow10 (k : Nat) : (pow10 k : ℚ) = 10 ^ k := Nat.cast_pow 10 k

theorem zpow_eq_div {a : ℚ} (ha : a ≠ 0) (k : ℤ) : a ^ k = a ^ k.toNat / a ^ (-k).toNat := by
  rw [← zpow_natCast, ← zpow_natCast, ← zpow_sub₀ ha]
  congr 1
  omega

theorem two_zpow_pos (k : ℤ) : (0 : ℚ) < 2 ^ k := zpow_pos two_pos k

theorem two_zpow_add (k : ℤ) (n : Nat) : (2 : ℚ) ^ (k + n) = pow2 n * 2 ^ k := by
  rw [zpow_add₀ two_ne_zero, zpow_natCast, cast_pow2, mul_comm]

theorem roundDiv_eq {num den r : Nat} (hd : 0 < den) (hlow : 2 * (r * den) ≤ 2 * num + den)
    (hhigh : 2 * num ≤ 2 * (r * den) + den)
    (hodd : r % 2 = 1 → 2 * (r * den) < 2 * num + den ∧ 2 * num < 2 * (r * den) + den) :
    roundDiv num den = r := by
  have hq := Nat.div_add_mod' num den
  have hlt := Nat.mod_lt num hd
  have hle : num / den < r + 1 := by
    refine Nat.lt_of_mul_lt_mul_right (a := den) ?_
    rw [Nat.succ_mul]
    omega
  have hge : r < num / den + 2 := by
    refine Nat.lt_of_mul_lt_mul_right (a := den) ?_
    rw [Nat.add_mul]
    omega
  unfold roundDiv
  dsimp only
  rcases Nat.lt_or_ge (num / den) r with h | h
  · obtain rfl : r = num / den + 1 := by omega
    rw [Nat.add_one_mul (num / den) den] at hlow hhigh hodd
    rw [if_pos (by omega)]
  · obtain rfl : r = num / den := by omega
    rw [if_neg (by omega)]

theorem leadingBit_spec {num den : Nat} (hn : num ≠ 0) (hd : den ≠ 0) :
    (2 : ℚ) ^ leadingBit num den ≤ num / den ∧
      (num : ℚ) / den < 2 ^ (leadingBit num den + 1) := by
  have hden : (0 : ℚ) < den := by exact_mod_cast Nat.pos_of_ne_zero hd
  have bounds {n : Nat} (h : n ≠ 0) : (2 : ℚ) ^ (n.log2 : ℤ) ≤ n ∧ (n : ℚ) < 2 ^ (n.log2 + 1 : ℤ) := by
    constructor
    · rw [zpow_natCast]
      exact_mod_cast Nat.log2_self_le h
    · rw [← Nat.cast_succ, zpow_natCast]
      exact_mod_cast Nat.lt_log2_self
  obtain ⟨hn1, hn2⟩ := bounds hn
  obtain ⟨hd1, hd2⟩ := bounds hd
  set b : ℤ := (num.log2 : ℤ) - den.log2 with hb
  have hlow : (2 : ℚ) ^ (b - 1) < num / den := by
    rw [lt_div_iff₀ hden]
    calc (2 : ℚ) ^ (b - 1) * den < 2 ^ (b - 1) * 2 ^ (den.log2 + 1 : ℤ) :=
          mul_lt_mul_of_pos_left hd2 (two_zpow_pos _)
      _ = 2 ^ (num.log2 : ℤ) := by rw [← zpow_add₀ two_ne_zero]; congr 1; omega
      _ ≤ num := hn1
  have hhigh : (num : ℚ) / den < 2 ^ (b + 1) := by
    rw [div_lt_iff₀ hden]
    calc (num : ℚ) < 2 ^ (num.log2 + 1 : ℤ) := hn2
      _ = 2 ^ (b + 1) * 2 ^ (den.log2 : ℤ) := by rw [← zpow_add₀ two_ne_zero]; congr 1; omega
      _ ≤ 2 ^ (b + 1) * den := mul_le_mul_of_nonneg_left hd1 (two_zpow_pos _).le
  have htest : den * pow2 b.toNat ≤ num * pow2 (-b).toNat ↔ (2 : ℚ) ^ b ≤ num / den := by
    rw [zpow_eq_div two_ne_zero, div_le_div_iff₀ (by positivity) hden, ← cast_pow2, ← cast_pow2,
      mul_comm (pow2 _ : ℚ)]
    exact_mod_cast Iff.rfl
  unfold leadingBit
  dsimp only
  rw [← hb]
  split
  · next h => exact ⟨htest.1 h, hhigh⟩
  · next h =>
      rw [htest, not_le] at h
      exact ⟨hlow.le, by rwa [sub_add_cancel]⟩

namespace Binary

/-- The number is the nearest one to `x`, or one of the two nearest and even. -/
def Near (b : Binary) (x : ℚ) : Prop :=
  if b.significand % 2 = 0 then b.low * 2 ^ (b.unit - 2) ≤ x ∧ x ≤ b.high * 2 ^ (b.unit - 2)
  else b.low * 2 ^ (b.unit - 2) < x ∧ x < b.high * 2 ^ (b.unit - 2)

section Near

variable {b : Binary} {x : ℚ}

theorem Near.low_le (h : b.Near x) : b.low * 2 ^ (b.unit - 2) ≤ x := by
  unfold Near at h
  split at h
  exacts [h.1, h.1.le]

theorem Near.le_high (h : b.Near x) : x ≤ b.high * 2 ^ (b.unit - 2) := by
  unfold Near at h
  split at h
  exacts [h.2, h.2.le]

theorem near_self (hb : 0 < b.significand) : b.Near (b.significand * 2 ^ b.unit) := by
  have hT := two_zpow_pos (b.unit - 2)
  have hs : (b.significand : ℚ) * 2 ^ b.unit = (4 * b.significand : Nat) * 2 ^ (b.unit - 2) := by
    have hu := two_zpow_add (b.unit - 2) 2
    rw [Nat.cast_ofNat, sub_add_cancel] at hu
    rw [hu, Nat.cast_mul, mul_left_comm, mul_assoc]
    rfl
  have hlow : b.low < 4 * b.significand := by unfold low; split <;> omega
  have hhigh : 4 * b.significand < b.high := by unfold high; omega
  rw [hs]
  unfold Near
  split
  · exact ⟨mul_le_mul_of_nonneg_right (by exact_mod_cast hlow.le) hT.le,
      mul_le_mul_of_nonneg_right (by exact_mod_cast hhigh.le) hT.le⟩
  · exact ⟨mul_lt_mul_of_pos_right (by exact_mod_cast hlow) hT,
      mul_lt_mul_of_pos_right (by exact_mod_cast hhigh) hT⟩

end Near

/-- A point of the grid times `scale` compares with quarters of the unit times `weight` as the two
numbers compare. -/
theorem exists_clearing (b : Binary) (g : ℤ) :
    ∃ k : ℚ, 0 < k ∧ (b.weight g : ℚ) = 2 ^ (b.unit - 2) * k ∧ (b.scale g : ℚ) = 10 ^ g * k := by
  refine ⟨2 ^ (2 - b.unit).toNat * 10 ^ (-g).toNat, by positivity, ?_, ?_⟩
  · rw [zpow_eq_div two_ne_zero, neg_sub, weight, Nat.cast_mul, cast_pow2, cast_pow10]
    field_simp
  · rw [zpow_eq_div (by norm_num), scale, Nat.cast_mul, cast_pow2, cast_pow10]
    field_simp

theorem admits_iff (b : Binary) (g : ℤ) (c : Nat) : b.admits g c = true ↔ b.Near (c * 10 ^ g) := by
  obtain ⟨k, hk, hw, hs⟩ := b.exists_clearing g
  have hle (m n : Nat) (y z : ℚ) : m * (y * k) ≤ n * (z * k) ↔ m * y ≤ n * z := by
    rw [← mul_assoc, ← mul_assoc, mul_le_mul_iff_left₀ hk]
  have hlt (m n : Nat) (y z : ℚ) : m * (y * k) < n * (z * k) ↔ m * y < n * z := by
    rw [← mul_assoc, ← mul_assoc, mul_lt_mul_iff_left₀ hk]
  unfold admits Near
  dsimp only
  split <;>
    simp only [Bool.and_eq_true, decide_eq_true_eq, ← Nat.cast_le (α := ℚ), ← Nat.cast_lt (α := ℚ),
      Nat.cast_mul, hw, hs, hle, hlt]

theorem onGrid?_near {b : Binary} {tie : Tie} {g : ℤ} {c : Nat} (h : b.onGrid? tie g = some c) :
    b.Near (c * 10 ^ g) := by
  rw [← admits_iff]
  revert h
  unfold onGrid?
  dsimp only
  split
  · nofun
  · next hc _ => rintro ⟨⟩; exact hc
  · next hc => rintro ⟨⟩; exact hc
  · next hc hc' =>
      split
      · rintro ⟨⟩; exact hc
      · split
        · rintro ⟨⟩; exact hc'
        · split <;> rintro ⟨⟩ <;> assumption

theorem search_near {b : Binary} (hb : 0 < b.significand) (tie : Tie) (n : Nat) (g : ℤ) :
    b.Near ((b.search tie n g).1 * 10 ^ (b.search tie n g).2) := by
  induction n generalizing g with
  | zero =>
      -- The fallback is the number itself, in tens.
      have hself := near_self hb
      unfold search
      split
      · next h =>
          rw [zpow_zero, mul_one, Nat.cast_mul, cast_pow2]
          rwa [zpow_eq_div two_ne_zero, show (-b.unit).toNat = 0 by omega, pow_zero, div_one] at hself
      · next h =>
          have hu : b.unit.toNat = 0 := by omega
          rw [zpow_eq_div two_ne_zero, hu, pow_zero] at hself
          rw [Nat.cast_mul, zpow_eq_div (by norm_num), hu, pow_zero]
          have h5 : ((Nat.pow 5 (-b.unit).toNat : Nat) : ℚ) = 5 ^ (-b.unit).toNat := Nat.cast_pow 5 _
          have h10 : (10 : ℚ) ^ (-b.unit).toNat = 5 ^ (-b.unit).toNat * 2 ^ (-b.unit).toNat := by
            rw [← mul_pow]; norm_num
          convert hself using 1
          rw [h5, h10]
          field_simp
  | succ n ih =>
      unfold search
      split
      · next c hc => exact onGrid?_near hc
      · exact ih (g - 1)

/-- What holds of the positive numbers that a word can spell. -/
structure Legal (b : Binary) : Prop where
  pos : 0 < b.significand
  lt : b.significand < pow2 53
  least : -1074 ≤ b.unit
  most : b.unit ≤ 971
  normal : b.unit = -1074 ∨ pow2 52 ≤ b.significand
  narrow : b.narrow = true ↔ b.significand = pow2 52 ∧ -1074 < b.unit

def bits (b : Binary) : Nat := (b.unit + 1074).toNat * pow2 52 + b.significand

theorem pow2_53 : pow2 53 = 9007199254740992 := rfl

section Spelled

variable {n : Nat}

theorem ofBits_of_field_eq_zero (h : n / pow2 52 = 0) : ofBits n = ⟨n % pow2 52, -1074, false⟩ :=
  if_pos h

theorem ofBits_of_field_ne_zero (h : n / pow2 52 ≠ 0) :
    ofBits n = ⟨pow2 52 + n % pow2 52, (n / pow2 52 : Nat) - 1075,
      n % pow2 52 = 0 ∧ 1 < n / pow2 52⟩ :=
  if_neg h

theorem ofBits_legal (hpos : 0 < n) (hlt : n < infinityBits) : (ofBits n).Legal := by
  have hmod := Nat.div_add_mod' n (pow2 52)
  have hfrac : n % pow2 52 < pow2 52 := Nat.mod_lt n (by decide)
  rw [infinityBits_eq] at hlt
  rw [pow2_52] at hmod hfrac
  by_cases h : n / pow2 52 = 0
  · rw [ofBits_of_field_eq_zero h]
    rw [pow2_52] at h
    refine ⟨?_, ?_, le_rfl, by norm_num, .inl rfl, iff_of_false nofun fun hn => lt_irrefl _ hn.2⟩
    · simp only [pow2_52]; omega
    · simp only [pow2_52, pow2_53]; omega
  · rw [ofBits_of_field_ne_zero h]
    rw [pow2_52] at h
    refine ⟨?_, ?_, ?_, ?_, .inr ?_, decide_eq_true_iff.trans ?_⟩
    all_goals simp only [pow2_52, pow2_53]; omega

theorem bits_ofBits (n : Nat) : (ofBits n).bits = n := by
  have hmod := Nat.div_add_mod' n (pow2 52)
  by_cases h : n / pow2 52 = 0
  · rw [ofBits_of_field_eq_zero h, bits]
    rw [h] at hmod
    change 0 * pow2 52 + n % pow2 52 = n
    exact hmod
  · rw [ofBits_of_field_ne_zero h, bits]
    have hf (k : Nat) (hk : k ≠ 0) : ((k : Int) - 1075 + 1074).toNat + 1 = k := by omega
    calc ((n / pow2 52 : Nat) - 1075 + 1074 : Int).toNat * pow2 52 + (pow2 52 + n % pow2 52)
        = n / pow2 52 * pow2 52 + n % pow2 52 := by
          rw [← Nat.add_assoc, ← Nat.add_one_mul, hf _ h]
      _ = n := hmod

end Spelled

section Legal

variable {b : Binary} {x : ℚ}

theorem Near.le (hb : b.Legal) (h : b.Near x) : (2 : ℚ) ^ (b.unit - 1) ≤ x := by
  have hlow : 2 ≤ b.low := by
    have := hb.pos
    unfold low
    split <;> omega
  calc (2 : ℚ) ^ (b.unit - 1) = 2 * 2 ^ (b.unit - 2) := by
        rw [show b.unit - 1 = b.unit - 2 + (1 : Nat) by omega, two_zpow_add]; norm_num [pow2]
    _ ≤ b.low * 2 ^ (b.unit - 2) :=
        mul_le_mul_of_nonneg_right (by exact_mod_cast hlow) (two_zpow_pos _).le
    _ ≤ x := h.low_le

theorem Near.lt (hb : b.Legal) (h : b.Near x) : x < 2 ^ (b.unit + 53) := by
  have hhigh : b.high < pow2 55 := by
    have := hb.lt
    rw [pow2_53] at this
    change _ < 36028797018963968
    unfold high
    omega
  calc x ≤ b.high * 2 ^ (b.unit - 2) := h.le_high
    _ < pow2 55 * 2 ^ (b.unit - 2) :=
        mul_lt_mul_of_pos_right (by exact_mod_cast hhigh) (two_zpow_pos _)
    _ = 2 ^ (b.unit + 53) := by rw [← two_zpow_add]; congr 1; omega

/-- A number whose interval reaches below a power of two is that power, and narrow. -/
theorem Near.eq_power (hb : b.Legal) (h : b.Near x) (hu : b.unit ≠ -1074)
    (hx : x < 2 ^ (b.unit + 52)) : b = ⟨pow2 52, b.unit, true⟩ := by
  have hlow : b.low < pow2 54 := by
    have hlt : b.low * (2 : ℚ) ^ (b.unit - 2) < pow2 54 * 2 ^ (b.unit - 2) := by
      rw [← two_zpow_add]
      refine (h.low_le.trans_lt hx).trans_eq ?_
      congr 1
      omega
    exact_mod_cast lt_of_mul_lt_mul_right hlt (two_zpow_pos _).le
  have hleast := hb.least
  have hsig : b.significand = pow2 52 := by
    have hnormal := hb.normal.resolve_left hu
    change _ < 18014398509481984 at hlow
    rw [pow2_52] at hnormal ⊢
    unfold low at hlow
    split at hlow <;> omega
  have hnarrow := hb.narrow.2 ⟨hsig, by omega⟩
  cases b
  simp_all

theorem low_power (u : ℤ) : low ⟨pow2 52, u, true⟩ = 18014398509481983 := by
  unfold low
  rw [if_pos rfl]
  change 4 * pow2 52 - 1 = _
  decide

theorem low_half (u : ℤ) : low ⟨pow2 53, u, false⟩ = 36028797018963966 := by
  unfold low
  rw [if_neg Bool.false_ne_true]
  change 4 * pow2 53 - 2 = _
  decide

theorem high_half (u : ℤ) : high ⟨pow2 53, u, false⟩ = 36028797018963970 := by
  change 4 * pow2 53 + 2 = _
  decide

theorem near_half {u : ℤ} (h : (⟨pow2 52, u, true⟩ : Binary).Near x) (hx : x < 2 ^ (u + 52)) :
    (⟨pow2 53, u - 1, false⟩ : Binary).Near x := by
  have hT : (2 : ℚ) ^ (u - 2) = 2 * 2 ^ (u - 1 - 2) := by
    rw [show u - 2 = u - 1 - 2 + (1 : Nat) by omega, two_zpow_add]; norm_num [pow2]
  have hlow := h.low_le
  have hpos := two_zpow_pos (u - 1 - 2)
  rw [show u + 52 = u - 2 + (54 : Nat) by omega, two_zpow_add, cast_pow2, hT] at hx
  rw [low_power, hT] at hlow
  push_cast at hlow
  unfold Near
  have heven : pow2 53 % 2 = 0 := by decide
  rw [if_pos heven, low_half, high_half]
  push_cast
  constructor <;> linarith

theorem bits_half {u : ℤ} (hu : -1074 < u) :
    bits ⟨pow2 53, u - 1, false⟩ = bits ⟨pow2 52, u, true⟩ := by
  have hsucc : (u + 1074).toNat = (u - 1 + 1074).toNat + 1 := by omega
  have h53 : pow2 53 = pow2 52 + pow2 52 := by decide
  unfold bits
  rw [h53, hsucc, Nat.add_one_mul, Nat.add_assoc]

theorem Near.widen {r : Nat} {u : ℤ} (h : (⟨r, u, true⟩ : Binary).Near x) :
    (⟨r, u, false⟩ : Binary).Near x := by
  have hlow : (4 * r - 2 : Nat) * (2 : ℚ) ^ (u - 2) ≤ (4 * r - 1 : Nat) * 2 ^ (u - 2) :=
    mul_le_mul_of_nonneg_right (by exact_mod_cast (by omega)) (two_zpow_pos _).le
  unfold Near at h ⊢
  dsimp only at h ⊢
  split at h
  · rw [if_pos ‹_›]; exact ⟨hlow.trans h.1, h.2⟩
  · rw [if_neg ‹_›]; exact ⟨hlow.trans_lt h.1, h.2⟩

end Legal

end Binary

open Binary

section Ratio

variable {num den : Nat}

theorem leadingBit_eq (hn : num ≠ 0) (hd : den ≠ 0) {k : ℤ} (hlow : (2 : ℚ) ^ k ≤ num / den)
    (hhigh : (num : ℚ) / den < 2 ^ (k + 1)) : leadingBit num den = k := by
  obtain ⟨h1, h2⟩ := leadingBit_spec hn hd
  have hk := (zpow_lt_zpow_iff_right₀ one_lt_two).1 (hlow.trans_lt h2)
  have hl := (zpow_lt_zpow_iff_right₀ one_lt_two).1 (h1.trans_lt hhigh)
  omega

/-- Counted in units of `2 ^ u`, the quotient is rounded to the number that is near it. -/
theorem roundDiv_of_near (hd : den ≠ 0) {r : Nat} {u : ℤ} (hr : 0 < r)
    (h : (⟨r, u, false⟩ : Binary).Near (num / den)) :
    roundDiv (num * pow2 (-u).toNat) (den * pow2 u.toNat) = r := by
  have hden : (0 : ℚ) < den := by exact_mod_cast Nat.pos_of_ne_zero hd
  have hT : (2 : ℚ) ^ (u - 2) = 2 ^ u.toNat / (2 ^ (-u).toNat * 4) := by
    rw [zpow_sub₀ two_ne_zero, zpow_eq_div two_ne_zero u, div_div]
    norm_num
  have hlow (k : Nat) : (k : ℚ) * 2 ^ (u - 2) ≤ num / den ↔
      k * (den * pow2 u.toNat) ≤ 4 * (num * pow2 (-u).toNat) := by
    rw [hT, mul_div_assoc', div_le_div_iff₀ (by positivity) hden, ← Nat.cast_le (α := ℚ)]
    push_cast
    rw [cast_pow2, cast_pow2]
    constructor <;> intro h <;> linarith
  have hhigh (k : Nat) : (num : ℚ) / den ≤ k * 2 ^ (u - 2) ↔
      4 * (num * pow2 (-u).toNat) ≤ k * (den * pow2 u.toNat) := by
    rw [hT, mul_div_assoc', div_le_div_iff₀ hden (by positivity), ← Nat.cast_le (α := ℚ)]
    push_cast
    rw [cast_pow2, cast_pow2]
    constructor <;> intro h <;> linarith
  have hpos : 0 < den * pow2 u.toNat :=
    Nat.mul_pos (Nat.pos_of_ne_zero hd) (Nat.pow_pos two_pos)
  have h1 := (hlow _).1 h.low_le
  have h2 := (hhigh _).1 h.le_high
  have hr4 : (4 * r - 2) * (den * pow2 u.toNat) + 2 * (den * pow2 u.toNat) =
      4 * (r * (den * pow2 u.toNat)) := by
    rw [← Nat.add_mul, Nat.sub_add_cancel (by omega), Nat.mul_assoc]
  simp only [low, high, Bool.false_eq_true, if_false, Nat.add_mul, Nat.mul_assoc 4] at h1 h2
  refine roundDiv_eq hpos (by omega) (by omega) fun hodd => ?_
  unfold Near at h
  rw [if_neg (by simp only; omega), ← not_le, ← not_le, hlow, hhigh] at h
  simp only [low, high, Bool.false_eq_true, if_false, Nat.add_mul, Nat.mul_assoc 4, not_le] at h
  omega

theorem ratioBits_of_near {b : Binary} (hb : b.Legal) (hd : den ≠ 0) (h : b.Near (num / den)) :
    ratioBits num den = min b.bits infinityBits := by
  have hn : num ≠ 0 := by
    rintro rfl
    have hpos := (two_zpow_pos _).trans_le (Near.le hb h)
    simp at hpos
  obtain ⟨h1, h2⟩ := leadingBit_spec hn hd
  have hlt : leadingBit num den < b.unit + 53 :=
    (zpow_lt_zpow_iff_right₀ one_lt_two).1 (h1.trans_lt (Near.lt hb h))
  unfold ratioBits
  rw [if_neg hn]
  dsimp only
  by_cases hq : b.unit = -1074 ∨ (2 : ℚ) ^ (b.unit + 52) ≤ num / den
  · -- The unit of the quotient is that of the number.
    have hu : max (leadingBit num den - 52) (-1074) = b.unit := by
      rcases hq with hq | hq
      · omega
      · have := hb.least
        have := leadingBit_eq hn hd hq (by rw [add_assoc]; exact Near.lt hb h)
        omega
    have hwide : (⟨b.significand, b.unit, false⟩ : Binary).Near (num / den) := by
      obtain ⟨r, u, narrow⟩ := b
      cases narrow with
      | false => exact h
      | true => exact h.widen
    rw [hu, roundDiv_of_near hd hb.pos hwide, bits]
  · -- The quotient is below a power of two that is the nearest number, and its unit is half as large.
    push Not at hq
    obtain ⟨hunit, hbelow⟩ := hq
    have hleast := hb.least
    have hpower := Near.eq_power hb h hunit hbelow
    generalize b.unit = u at *
    subst hpower
    have hbit : leadingBit num den = u + 51 := by
      refine leadingBit_eq hn hd ?_ (by rw [add_assoc]; exact hbelow)
      calc (2 : ℚ) ^ (u + 51) = pow2 53 * 2 ^ (u - 2) := by rw [← two_zpow_add]; congr 1; omega
        _ ≤ low ⟨pow2 52, u, true⟩ * 2 ^ (u - 2) := by
            refine mul_le_mul_of_nonneg_right ?_ (two_zpow_pos _).le
            rw [low_power, cast_pow2]
            norm_num
        _ ≤ num / den := h.low_le
    have hu : max (leadingBit num den - 52) (-1074) = u - 1 := by omega
    have hround := roundDiv_of_near hd (by decide) (near_half h hbelow)
    rw [hu, hround, ← bits_half (by omega), bits]

theorem roundDiv_le {k : Nat} (h : num < k * den) : roundDiv num den ≤ k := by
  have hlt : num / den < k := Nat.div_lt_of_lt_mul (by rwa [Nat.mul_comm])
  unfold roundDiv
  dsimp only
  split <;> omega

theorem ratioBits_lt (hd : den ≠ 0) (h : (num : ℚ) / den < 2 ^ (1000 : ℤ)) :
    ratioBits num den < infinityBits := by
  unfold ratioBits
  split
  · decide
  · next hn =>
      dsimp only
      obtain ⟨h1, h2⟩ := leadingBit_spec hn hd
      have hbit := (zpow_lt_zpow_iff_right₀ one_lt_two).1 (h1.trans_lt h)
      generalize hu : max (leadingBit num den - 52) (-1074) = u
      have hround : roundDiv (num * pow2 (-u).toNat) (den * pow2 u.toNat) ≤ pow2 53 := by
        refine roundDiv_le ?_
        have hlt : (num : ℚ) / den < 2 ^ (u + (53 : Nat)) :=
          h2.trans_le ((zpow_le_zpow_iff_right₀ one_lt_two).2 (by omega))
        have hden : (0 : ℚ) < den := by exact_mod_cast Nat.pos_of_ne_zero hd
        rw [two_zpow_add, zpow_eq_div two_ne_zero, mul_div_assoc', div_lt_div_iff₀ hden (by positivity),
          ← cast_pow2, ← cast_pow2, mul_assoc, mul_comm (pow2 u.toNat : ℚ)] at hlt
        exact_mod_cast hlt
      have hfield : (u + 1074).toNat * pow2 52 ≤ 2021 * pow2 52 := Nat.mul_le_mul_right _ (by omega)
      rw [pow2_53] at hround
      rw [pow2_52] at hfield ⊢
      rw [infinityBits_eq]
      omega

end Ratio

section Range

variable {b : Binary} {digits : Nat} {exponent : ℤ}

theorem two_zpow_three_mul (k : ℤ) : (2 : ℚ) ^ (3 * k) = 8 ^ k := by
  rw [zpow_mul]
  norm_num

theorem Binary.Near.digits_ne_zero (hb : b.Legal) (h : b.Near (digits * 10 ^ exponent)) :
    digits ≠ 0 := by
  rintro rfl
  have hlow := Near.le hb h
  rw [Nat.cast_zero, zero_mul] at hlow
  exact absurd hlow (not_le.2 (two_zpow_pos _))

theorem Binary.Near.exponent_le (hb : b.Legal) (h : b.Near (digits * 10 ^ exponent)) :
    ¬400 < exponent := by
  intro he
  have hmost := hb.most
  have hone : (1 : ℚ) ≤ digits := by exact_mod_cast Nat.pos_of_ne_zero (h.digits_ne_zero hb)
  have hpow : (2 : ℚ) ^ (3 * exponent) ≤ 10 ^ exponent := by
    rw [two_zpow_three_mul]
    exact zpow_le_zpow_left₀ (by omega) (by norm_num) (by norm_num)
  have hlt : (2 : ℚ) ^ (3 * exponent) < 2 ^ (b.unit + 53) :=
    calc (2 : ℚ) ^ (3 * exponent) ≤ 1 * 10 ^ exponent := by rwa [one_mul]
      _ ≤ digits * 10 ^ exponent := mul_le_mul_of_nonneg_right hone (by positivity)
      _ < 2 ^ (b.unit + 53) := Near.lt hb h
  have := (zpow_lt_zpow_iff_right₀ one_lt_two).1 hlt
  omega

theorem mul_ten_zpow_le (he : exponent ≤ 0) :
    (digits : ℚ) * 10 ^ exponent ≤ 2 ^ (digits.log2 + 1 + 3 * exponent : ℤ) := by
  have hlog : (digits : ℚ) ≤ 2 ^ (digits.log2 + 1 : ℤ) := by
    rw [← Nat.cast_succ, zpow_natCast]
    exact_mod_cast Nat.lt_log2_self.le
  have hpow : (10 : ℚ) ^ exponent ≤ 2 ^ (3 * exponent) := by
    have hneg : (8 : ℚ) ^ (-exponent) ≤ 10 ^ (-exponent) :=
      zpow_le_zpow_left₀ (by omega) (by norm_num) (by norm_num)
    rw [zpow_neg, zpow_neg] at hneg
    rw [two_zpow_three_mul]
    exact (inv_le_inv₀ (by positivity) (by positivity)).1 hneg
  rw [zpow_add₀ two_ne_zero]
  exact mul_le_mul hlog hpow (by positivity) (by positivity)

theorem Binary.Near.le_exponent (hb : b.Legal) (h : b.Near (digits * 10 ^ exponent)) :
    ¬(digits.log2 : ℤ) + exponent < -400 := by
  intro he
  have hleast := hb.least
  have hle := (Near.le hb h).trans (mul_ten_zpow_le (by omega))
  rw [zpow_le_zpow_iff_right₀ one_lt_two] at hle
  omega

theorem ratio_eq (digits : Nat) (exponent : ℤ) :
    ((digits * pow10 exponent.toNat : Nat) : ℚ) / (pow10 (-exponent).toNat : Nat) =
      digits * 10 ^ exponent := by
  rw [Nat.cast_mul, cast_pow10, cast_pow10, mul_div_assoc, ← zpow_eq_div (by norm_num) exponent]

theorem magnitudeBits_of_near (hb : b.Legal) (h : b.Near (digits * 10 ^ exponent)) :
    magnitudeBits digits exponent = min b.bits infinityBits := by
  unfold magnitudeBits
  rw [if_neg (h.digits_ne_zero hb), if_neg (h.exponent_le hb), if_neg (h.le_exponent hb)]
  refine ratioBits_of_near hb (Nat.pow_pos (by norm_num)).ne' ?_
  rwa [ratio_eq]

end Range

def magnitude (d : Decimal) : ℚ := d.digits * 10 ^ d.exponent

theorem shortest_near {b : Binary} (hb : 0 < b.significand) (tie : Tie) :
    b.Near ((b.shortest tie).1 * 10 ^ (b.shortest tie).2) :=
  search_near hb tie _ _

theorem magnitudeBits_of_magnitude {x : Float} (hx : x.isFinite = true) {tie : Tie} {d : Decimal}
    (h : d.magnitude = (ofFloat tie x).magnitude) :
    magnitudeBits d.digits d.exponent = bitsOf x := by
  have hlt := (Binary64.isFinite_iff x).1 hx
  unfold ofFloat at h
  split at h
  · next hz =>
      have hd : d.digits = 0 := by
        have h0 : (d.digits : ℚ) * 10 ^ d.exponent = 0 := by simpa [magnitude] using h
        have h10 : (10 : ℚ) ^ d.exponent ≠ 0 := zpow_ne_zero _ (by norm_num)
        exact_mod_cast (mul_eq_zero.1 h0).resolve_right h10
      rw [hd, hz, magnitudeBits, if_pos rfl]
  · next hz =>
      have hb := ofBits_legal (Nat.pos_of_ne_zero hz) hlt
      have hnear := shortest_near hb.pos tie
      change (d.digits : ℚ) * 10 ^ d.exponent = _ * 10 ^ _ at h
      rw [← h] at hnear
      rw [magnitudeBits_of_near hb hnear, bits_ofBits, Nat.min_eq_left hlt.le]

theorem ofFloat_negative (tie : Tie) (x : Float) : (ofFloat tie x).negative = isNegative x := by
  unfold ofFloat
  split <;> rfl

/-- A decimal with the sign of a finite number and the magnitude of its shortest decimal reads as
that number. -/
theorem toFloat_eq {x : Float} (hx : x.isFinite = true) {tie : Tie} {d : Decimal}
    (hs : d.negative = isNegative x) (h : d.magnitude = (ofFloat tie x).magnitude) :
    d.toFloat = x := by
  have hbits : signBit (isNegative x) + bitsOf x = x.toBits.toNat := by
    have hlt : x.toBits.toNat < 18446744073709551616 := x.toBits.toNat_lt
    unfold signBit isNegative bitsOf
    rw [pow2_63]
    by_cases h : 9223372036854775808 ≤ x.toBits.toNat
    · rw [if_pos (decide_eq_true h)]
      omega
    · rw [if_neg (by rwa [decide_eq_true_eq])]
      omega
  rw [toFloat, hs, magnitudeBits_of_magnitude hx h, hbits, UInt64.ofNat_toNat,
    Float.ofBits_toBits]

theorem bitsOf_toFloat (d : Decimal) (h : magnitudeBits d.digits d.exponent < infinityBits) :
    bitsOf d.toFloat = magnitudeBits d.digits d.exponent := by
  have h63 : infinityBits < pow2 63 := by decide
  have hmod : (signBit d.negative + magnitudeBits d.digits d.exponent) % pow2 63 =
      magnitudeBits d.digits d.exponent := by
    unfold signBit
    split
    · rw [Nat.add_mod_left, Nat.mod_eq_of_lt (h.trans h63)]
    · rw [Nat.zero_add, Nat.mod_eq_of_lt (h.trans h63)]
  have hsize : signBit d.negative + magnitudeBits d.digits d.exponent < UInt64.size := by
    rw [infinityBits_eq] at h
    change _ < 18446744073709551616
    unfold signBit
    rw [pow2_63]
    split <;> omega
  rw [bitsOf, toFloat, Binary64.toNat_toBits_ofBits hsize (hmod.trans_lt h), hmod]

theorem toFloat_finite_of_lt {d : Decimal} (h : d.magnitude < 2 ^ (1000 : ℤ))
    (he : d.exponent = 0) : d.toFloat.isFinite = true := by
  have hlt : magnitudeBits d.digits d.exponent < infinityBits := by
    unfold magnitudeBits
    split
    · decide
    · rw [if_neg (by omega), if_neg (by omega), he]
      refine ratioBits_lt (by decide) ?_
      rw [magnitude, he, zpow_zero, mul_one] at h
      simpa [pow10] using h
  rw [Binary64.isFinite_iff, bitsOf_toFloat d hlt]
  exact hlt

end SentenceScript.Decimal
