import SentenceScript.Proofs.Rounding
import SentenceScript.Proofs.Wording

namespace SentenceScript

namespace Text

section Row

variable {p : Char → Bool} {row rest : List Char}

/-- The characters of a class at the head of a text, up to the first that is not in it. -/
theorem takeWhile_row (hd : ∀ c ∈ row, p c = true) (hr : ∀ c ∈ rest.head?, p c = false) :
    (row ++ rest).takeWhile p = row := by
  rw [List.takeWhile_append_of_pos hd]
  cases rest with
  | nil => simp
  | cons c rest => simp [hr c rfl]

theorem dropWhile_row (hd : ∀ c ∈ row, p c = true) (hr : ∀ c ∈ rest.head?, p c = false) :
    (row ++ rest).dropWhile p = rest := by
  rw [List.dropWhile_append_of_pos hd]
  cases rest with
  | nil => rfl
  | cons c rest => simp [hr c rfl]

end Row

theorem isBlank_of_isDigit {c : Char} (h : c.isDigit = true) : isBlank c = false := by
  have hc : 48 ≤ c.toNat ∧ c.toNat ≤ 57 := by
    simpa [Char.isDigit, Char.le_def, UInt32.le_iff_toNat_le] using h
  simp only [isBlank, Bool.or_eq_false_iff, Bool.and_eq_false_iff, decide_eq_false_iff_not,
    beq_eq_false_iff_ne]
  omega

end Text

namespace Decimal

open Text

theorem isDigit_digitChars (n : Nat) : ∀ c ∈ digitChars n, c.isDigit = true := fun _ =>
  Nat.isDigit_of_mem_toDigits (by decide) (by decide)

theorem isDigit_zeros (n : Nat) : ∀ c ∈ zeros n, c.isDigit = true := by
  intro c hc
  rw [List.eq_of_mem_replicate hc]
  decide

theorem digitChars_ne_nil (n : Nat) : digitChars n ≠ [] := by
  unfold digitChars
  rw [Nat.toDigits_eq_if (by decide)]
  split <;> simp

theorem head?_digitChars {n : Nat} (h : n ≠ 0) : (digitChars n).head? ≠ some '0' := by
  have hdigit : ∀ n < 10, n ≠ 0 → n.digitChar ≠ '0' := by decide
  unfold digitChars
  induction n using Nat.strongRecOn with
  | ind n ih =>
      rw [Nat.toDigits_eq_if (by decide)]
      split
      · next hlt => simpa using hdigit n hlt h
      · next hge =>
          have hne : Nat.toDigits 10 (n / 10) ≠ [] := digitChars_ne_nil (n / 10)
          rw [List.head?_append_of_ne_nil _ hne]
          exact ih (n / 10) (by omega) (by omega)

theorem valueOf_append (a b : List Char) :
    valueOf (a ++ b) = valueOf a * pow10 b.length + valueOf b := by
  have fold (n : Nat) : b.foldl (fun n d => 10 * n + (d.toNat - '0'.toNat)) n =
      n * pow10 b.length + valueOf b := by
    induction b generalizing n with
    | nil => simp [pow10, valueOf]
    | cons c b ih =>
        have hs : pow10 (c :: b).length = pow10 b.length * 10 := rfl
        simp only [valueOf, List.foldl_cons] at ih ⊢
        rw [ih, ih (10 * 0 + _), hs]
        ring
  unfold valueOf
  rw [List.foldl_append, fold]
  rfl

theorem valueOf_zeros (n : Nat) : valueOf (zeros n) = 0 := by
  induction n with
  | zero => rfl
  | succ n ih => exact ih

theorem valueOf_digitChars (n : Nat) : valueOf (digitChars n) = n := by
  induction n using Nat.strongRecOn with
  | ind n ih =>
      rw [digitChars, Nat.toDigits_eq_if (by decide)]
      split
      · next h => simp [valueOf, Nat.toNat_digitChar_sub_48_of_lt_ten h]
      · next h =>
          have hd := ih (n / 10) (by omega)
          have hm := Nat.toNat_digitChar_sub_48_of_lt_ten (Nat.mod_lt n (by decide : 0 < 10))
          simp only [valueOf, digitChars, List.foldl_append, List.foldl_cons, List.foldl_nil] at hd ⊢
          rw [hd]
          change 10 * (n / 10) + ((n % 10).digitChar.toNat - 48) = n
          omega

/-- The digits before and behind the point of a number. -/
structure Digits (whole fraction : List Char) : Prop where
  whole_digits : ∀ c ∈ whole, c.isDigit = true
  whole_ne_nil : whole ≠ []
  fraction_digits : ∀ c ∈ fraction, c.isDigit = true

/-- The digits of a number that equals the decimal up to its sign. -/
structure Spelled (d : Decimal) (whole fraction : List Char) : Prop extends
    Digits whole fraction where
  leading : whole.length = 1 ∨ whole.head? ≠ some '0'
  magnitude_eq : magnitude ⟨d.negative, valueOf (whole ++ fraction), -fraction.length⟩ = d.magnitude

def point (fraction : List Char) : List Char := if fraction.isEmpty then [] else '.' :: fraction

theorem magnitude_mk (negative : Bool) (digits : Nat) (exponent : Int) :
    magnitude ⟨negative, digits, exponent⟩ = digits * 10 ^ exponent := rfl

section Plain

variable (d : Decimal)

/-- Without a fraction, the places below the digits are filled with zeros. -/
theorem spelled_whole (he : 0 ≤ d.exponent) (hz : d.digits = 0 → d.exponent = 0) :
    Spelled d (digitChars d.digits ++ zeros d.exponent.toNat) [] where
  whole_digits := by
    intro c hc
    rcases List.mem_append.1 hc with hc | hc
    · exact isDigit_digitChars _ c hc
    · exact isDigit_zeros _ c hc
  whole_ne_nil := by simp [digitChars_ne_nil]
  leading := by
    by_cases h0 : d.digits = 0
    · rw [h0, hz h0]
      exact .inl rfl
    · right
      rw [List.head?_append_of_ne_nil _ (digitChars_ne_nil _)]
      exact head?_digitChars h0
  fraction_digits := by simp
  magnitude_eq := by
    have h10 : ((10 : ℚ) ^ d.exponent) = pow10 d.exponent.toNat := by
      rw [zpow_eq_div (by norm_num), show (-d.exponent).toNat = 0 by omega, cast_pow10]
      simp
    rw [List.append_nil, valueOf_append, valueOf_zeros, valueOf_digitChars, magnitude_mk, magnitude,
      h10, zeros, List.length_replicate]
    simp

theorem spelled_count (n : Nat) : Spelled ⟨false, n, 0⟩ (digitChars n) [] := by
  have h := spelled_whole ⟨false, n, 0⟩ le_rfl fun _ => rfl
  rwa [Int.toNat_zero, zeros, List.replicate_zero, List.append_nil] at h

/-- With a fraction, zeros before the digits leave at least one of them before the point. -/
theorem spelled_pointed (he : d.exponent < 0) :
    ∃ whole fraction, Spelled d whole fraction ∧ fraction ≠ [] ∧
      pointed (digitChars d.digits) (-d.exponent).toNat = whole ++ '.' :: fraction := by
  generalize hp : (-d.exponent).toNat = places
  let row := zeros (places + 1 - (digitChars d.digits).length) ++ digitChars d.digits
  have hrow : row.length = max (places + 1) (digitChars d.digits).length := by
    simp only [row, zeros, List.length_append, List.length_replicate]
    omega
  have hdigits : ∀ c ∈ row, c.isDigit = true := by
    intro c hc
    rcases List.mem_append.1 hc with hc | hc
    · exact isDigit_zeros _ c hc
    · exact isDigit_digitChars _ c hc
  have hlen : (row.drop (row.length - places)).length = places := by
    rw [List.length_drop]; omega
  refine ⟨row.take (row.length - places), row.drop (row.length - places), ?_, ?_, rfl⟩
  · refine ⟨⟨fun c hc => hdigits c (List.mem_of_mem_take hc), fun h => ?_,
      fun c hc => hdigits c (List.mem_of_mem_drop hc)⟩, ?_, ?_⟩
    · have := congrArg List.length h
      simp only [List.length_take, List.length_nil] at this
      omega
    · rcases Nat.lt_or_ge places (digitChars d.digits).length with h | h
      · right
        have hr : row = digitChars d.digits := by
          simp only [row, show places + 1 - (digitChars d.digits).length = 0 by omega]
          rfl
        have h0 : d.digits ≠ 0 := by
          intro h0
          rw [h0] at h
          have : (digitChars 0).length = 1 := rfl
          omega
        rw [hr, List.head?_take, if_neg (by omega)]
        exact head?_digitChars h0
      · left
        rw [List.length_take]
        omega
    · have he' : d.exponent = -(places : ℤ) := by omega
      rw [List.take_append_drop, hlen, magnitude_mk, magnitude, he']
      simp only [row, valueOf_append, valueOf_zeros, valueOf_digitChars, Nat.zero_mul, Nat.zero_add]
  · intro h
    rw [h, List.length_nil] at hlen
    omega

theorem plain_spelled (hz : d.digits = 0 → d.exponent = 0) :
    ∃ whole fraction, Spelled d whole fraction ∧ (fraction = [] ↔ 0 ≤ d.exponent) ∧
      d.plain = signChars d.negative ++ (whole ++ point fraction) := by
  by_cases he : 0 ≤ d.exponent
  · refine ⟨_, [], spelled_whole d he hz, by simpa using he, ?_⟩
    simp [plain, point, he]
  · obtain ⟨whole, fraction, hs, hne, hp⟩ := spelled_pointed d (by omega)
    refine ⟨whole, fraction, hs, iff_of_false hne he, ?_⟩
    simp [plain, point, he, hne, hp]

/-- With an exponent, one digit stands before the point. -/
theorem spelled_scientific :
    ∃ a tail, valueOf ([a] ++ tail) = d.digits ∧
      Spelled ⟨d.negative, d.digits, -tail.length⟩ [a] tail ∧
      d.scientific = signChars d.negative ++ ([a] ++ (point tail ++
        'e' :: (if d.exponent + tail.length < 0 then '-' else '+') ::
          digitChars (d.exponent + tail.length).natAbs)) := by
  have hdigits := isDigit_digitChars d.digits
  have hvalue := valueOf_digitChars d.digits
  cases h : digitChars d.digits with
  | nil => exact absurd h (digitChars_ne_nil _)
  | cons a tail =>
      rw [h] at hdigits hvalue
      refine ⟨a, tail, hvalue, ?_, ?_⟩
      · refine ⟨⟨by simpa using hdigits a (by simp), by simp, fun c hc => hdigits c (by simp [hc])⟩,
          by simp, ?_⟩
        rw [List.singleton_append, hvalue]
      · unfold scientific point
        simp only [h]
        cases tail <;> simp

end Plain

theorem takeSign_append (negative : Bool) {c : Char} (hc : c.isDigit = true) (r : List Char) :
    takeSign (signChars negative ++ c :: r) = (negative, c :: r) := by
  cases negative with
  | true => rfl
  | false =>
      change takeSign (c :: r) = _
      unfold takeSign
      split
      · next h => cases h; exact absurd hc (by decide)
      · next h => cases h; exact absurd hc (by decide)
      · rfl

theorem ofFloat_exponent {x : Float} (hx : x.isFinite = true) (tie : Tie)
    (h : (ofFloat tie x).digits = 0) : (ofFloat tie x).exponent = 0 := by
  have hlt := (Binary64.isFinite_iff x).1 hx
  unfold ofFloat at h ⊢
  split
  · rfl
  · next hz =>
      rw [if_neg hz] at h
      have hb := Binary.ofBits_legal (Nat.pos_of_ne_zero hz) hlt
      exact absurd h ((shortest_near hb.pos tie).digits_ne_zero hb)

namespace Digits

variable {whole fraction : List Char}

theorem exists_cons (h : Digits whole fraction) :
    ∃ c r, whole = c :: r ∧ c.isDigit = true := by
  cases whole with
  | nil => exact absurd rfl h.whole_ne_nil
  | cons c r => exact ⟨c, r, rfl, h.whole_digits c (by simp)⟩

theorem read?_eq (h : Digits whole fraction) (negative : Bool) :
    read? (signChars negative ++ (whole ++ point fraction)) =
      some ⟨negative, valueOf (whole ++ fraction), -fraction.length⟩ := by
  obtain ⟨c, r, hc, hd⟩ := h.exists_cons
  have hs : takeSign (signChars negative ++ (whole ++ point fraction)) =
      (negative, whole ++ point fraction) := by
    rw [hc, List.cons_append, takeSign_append negative hd]
  have hne : whole.isEmpty = false := by rw [hc]; rfl
  rw [read?, hs]
  dsimp only
  cases fraction with
  | nil =>
      have hp : ∀ c ∈ (point []).head?, c.isDigit = false := nofun
      rw [unsigned?, takeWhile_row h.whole_digits hp, dropWhile_row h.whole_digits hp]
      simp [point, hne, power?]
  | cons f fs =>
      have hp : ∀ c ∈ (point (f :: fs)).head?, c.isDigit = false := by
        intro c hc
        cases hc
        decide
      have hf := h.fraction_digits
      have htake := List.takeWhile_eq_self_iff.2 hf
      have hdrop := List.dropWhile_eq_nil_iff.2 hf
      rw [unsigned?, takeWhile_row h.whole_digits hp, dropWhile_row h.whole_digits hp]
      simp [point, hne, htake, hdrop, power?]

end Digits

theorem Spelled.zero {d : Decimal} {whole : List Char} (h : Spelled d whole []) :
    Spelled d whole ['0'] where
  whole_digits := h.whole_digits
  whole_ne_nil := h.whole_ne_nil
  leading := h.leading
  fraction_digits := by simp
  magnitude_eq := by
    rw [← h.magnitude_eq, magnitude_mk, magnitude_mk, valueOf_append, List.append_nil]
    simp [pow10, valueOf]

end Decimal

end SentenceScript
