import SentenceScript.Proofs.Numerals
import SentenceScript.Instant

namespace SentenceScript

namespace Calendar

/-- The day `n` of an era of 400 years is the day `d` of a year from March: the year `k` of the
leap cycle `q` of the century `c`. Only the last year of a cycle has a day more, and not at the end
of the first three centuries. -/
structure DayOfEra (n c q k d : Int) : Prop where
  eq : n = 36524 * c + 1461 * q + 365 * k + d
  century : 0 ≤ c ∧ c ≤ 3
  cycle : 0 ≤ q ∧ q ≤ 24
  year : 0 ≤ k ∧ k ≤ 3
  day : 0 ≤ d ∧ d ≤ 365
  leap : d = 365 → k = 3 ∧ (q = 24 → c = 3)

theorem exists_dayOfEra {n : Int} (h0 : 0 ≤ n) (h1 : n < 146097) :
    ∃ c q k d, DayOfEra n c q k d := by
  let c := min (n / 36524) 3
  let q := (n - 36524 * c) / 1461
  let k := min ((n - 36524 * c - 1461 * q) / 365) 3
  refine ⟨c, q, k, n - 36524 * c - 1461 * q - 365 * k, ?_, ?_, ?_, ?_, ?_, ?_⟩ <;> omega

namespace DayOfEra

variable {n c q k d : Int}

theorem yearOfEra_eq (h : DayOfEra n c q k d) :
    (n - n / 1460 + n / 36524 - n / 146096) / 365 = 100 * c + 4 * q + k := by
  obtain ⟨hn, hc, hq, hk, hd, hl⟩ := h
  have hrest : 1461 * q + 365 * k + d < 36524 ∨ (c = 3 ∧ 1461 * q + 365 * k + d = 36524) := by
    omega
  have hcenturies : n / 36524 - n / 146096 = c := by
    rcases hrest with h | ⟨rfl, h⟩
    · have h1 : n / 36524 = c := by omega
      have h2 : n / 146096 = 0 := by omega
      omega
    · obtain rfl : n = 146096 := by omega
      decide
  have hcycles : n / 1460 = 25 * c + q ∨ (n / 1460 = 25 * c + q + 1 ∧ 0 < d) := by omega
  omega

theorem leapDays_eq (h : DayOfEra n c q k d) :
    (100 * c + 4 * q + k) / 4 = 25 * c + q ∧ (100 * c + 4 * q + k) / 100 = c := by
  obtain ⟨-, -, hq, hk, -, -⟩ := h
  omega

end DayOfEra

/-- The date of a day of an era, its month counted from March. -/
theorem ofDays_spec (days : Int) :
    ∃ era c q k d m, DayOfEra (days + 719468 - era * 146097) c q k d ∧ m = (5 * d + 2) / 153 ∧
      Date.ofDays days = ⟨100 * c + 4 * q + k + era * 400 + (if m < 10 then 0 else 1),
        (if m < 10 then m + 3 else m - 9).toNat, (d - (153 * m + 2) / 5 + 1).toNat⟩ := by
  have hera : (days + 719468).fdiv 146097 = (days + 719468) / 146097 :=
    Int.fdiv_eq_ediv_of_nonneg _ (by decide)
  obtain ⟨c, q, k, d, h⟩ :=
    @exists_dayOfEra (days + 719468 - (days + 719468) / 146097 * 146097) (by omega) (by omega)
  refine ⟨(days + 719468) / 146097, c, q, k, d, _, h, rfl, ?_⟩
  have hn := h.eq
  have hy := h.yearOfEra_eq
  obtain ⟨h4, h100⟩ := h.leapDays_eq
  have hd := h.day
  unfold Date.ofDays
  simp only [hera, hy, h4, h100]
  generalize (days + 719468) / 146097 = era at *
  have hday : days + 719468 - era * 146097 -
      (365 * (100 * c + 4 * q + k) + (25 * c + q) - c) = d := by omega
  rw [hday]
  by_cases hm : (5 * d + 2) / 153 < 10
  · simp only [if_pos hm]
    rw [if_neg (by omega)]
  · simp only [if_neg hm]
    rw [if_pos (by omega)]

theorem monthLength_le (year : Int) (month : Nat) : monthLength year month ≤ 31 := by
  unfold monthLength
  split
  · split <;> decide
  · split <;> decide

theorem toDays_ofDays (days : Int) : (Date.ofDays days).toDays = days := by
  obtain ⟨era, c, q, k, d, m, h, hm, hdate⟩ := ofDays_spec days
  obtain ⟨h4, h100⟩ := h.leapDays_eq
  obtain ⟨hn, hc, hq, hk, hd, -⟩ := h
  have hera : (100 * c + 4 * q + k + era * 400).fdiv 400 = era := by
    rw [Int.fdiv_eq_ediv_of_nonneg _ (by decide)]
    omega
  have hofEra : 100 * c + 4 * q + k + era * 400 - era * 400 = 100 * c + 4 * q + k := by omega
  rw [hdate, Date.toDays]
  dsimp only
  by_cases h10 : m < 10
  · have hmonth : ¬(m + 3).toNat ≤ 2 := by omega
    rw [if_pos h10, if_pos h10, if_neg hmonth, if_neg hmonth, Int.add_zero, hera, hofEra, h4, h100]
    omega
  · have hmonth : (m - 9).toNat ≤ 2 := by omega
    rw [if_neg h10, if_neg h10, if_pos hmonth, if_pos hmonth, Int.add_sub_cancel, hera, hofEra, h4,
      h100]
    omega

theorem ofDays_valid (days : Int) : (Date.ofDays days).valid = true := by
  obtain ⟨era, c, q, k, d, m, h, hm, hdate⟩ := ofDays_spec days
  obtain ⟨hn, hc, hq, hk, hd, hl⟩ := h
  rw [hdate]
  by_cases h10 : m < 10
  · simp only [if_pos h10, Date.valid, monthLength, Bool.and_eq_true, decide_eq_true_eq]
    rw [if_neg (by omega)]
    split <;> omega
  · simp only [if_neg h10, Date.valid, monthLength, Bool.and_eq_true, decide_eq_true_eq]
    by_cases h11 : m = 11
    · -- February has its last day only in the last year of a leap cycle.
      rw [if_pos (by omega)]
      by_cases hlast : d = 365
      · obtain ⟨rfl, hcq⟩ := hl hlast
        have hleap : isLeap (100 * c + 4 * q + 3 + era * 400 + 1) = true := by
          simp only [isLeap, Bool.and_eq_true, Bool.or_eq_true, beq_iff_eq, bne_iff_ne]
          omega
        rw [hleap, if_pos rfl]
        omega
      · split <;> omega
    · rw [if_neg (by omega), if_neg (by omega)]
      omega

theorem year_ofDays {days : Int} (hlow : Date.toDays ⟨Instant.firstYear, 1, 1⟩ ≤ days)
    (hhigh : days ≤ Date.toDays ⟨Instant.lastYear, 12, 31⟩) :
    Instant.firstYear ≤ (Date.ofDays days).year ∧ (Date.ofDays days).year ≤ Instant.lastYear := by
  obtain ⟨era, c, q, k, d, m, h, hm, hdate⟩ := ofDays_spec days
  obtain ⟨hn, hc, hq, hk, hd, -⟩ := h
  have h1 : Date.toDays ⟨Instant.firstYear, 1, 1⟩ = -96465292 := by decide
  have h2 : Date.toDays ⟨Instant.lastYear, 12, 31⟩ = 95026236 := by decide
  rw [hdate]
  dsimp only [Instant.firstYear, Instant.lastYear] at *
  split
  · omega
  · have hlast : 100 * c + 4 * q + k + era * 400 ≠ 262142 := by omega
    omega

end Calendar

open Text Decimal Calendar

theorem Decimal.length_digitChars_le {n width : Nat} (hw : 0 < width) (h : n < pow10 width) :
    (digitChars n).length ≤ width :=
  Nat.toDigits_length 10 n width hw h

namespace Instant

section Fields

variable {width n : Nat}

theorem isDigit_padded : ∀ c ∈ padded width n, c.isDigit = true := by
  intro c hc
  rcases List.mem_append.1 hc with hc | hc
  · exact isDigit_zeros _ c hc
  · exact isDigit_digitChars _ c hc

theorem padded_ne_nil : padded width n ≠ [] := by simp [padded, digitChars_ne_nil]

theorem valueOf_padded : valueOf (padded width n) = n := by
  simp [padded, valueOf_append, valueOf_zeros, valueOf_digitChars]

theorem length_padded (hw : 0 < width) (h : n < pow10 width) : (padded width n).length = width := by
  have := length_digitChars_le hw h
  simp only [padded, zeros, List.length_append, List.length_replicate]
  omega

theorem dropBlanks_padded (rest : List Char) :
    dropBlanks (padded width n ++ rest) = padded width n ++ rest := by
  cases hp : padded width n with
  | nil => exact absurd hp padded_ne_nil
  | cons c r =>
      have hc : c.isDigit = true := isDigit_padded c (hp ▸ List.mem_cons_self)
      exact dropBlanks_cons (isBlank_of_isDigit hc) _

theorem takeField_padded (hw : 0 < width) (h : n < pow10 width) (rest : List Char) :
    takeField width (padded width n ++ rest) = some (n, rest) := by
  have hl := length_padded hw h
  have ht : (padded width n ++ rest).take width = padded width n := List.take_left' hl
  have hd : (padded width n ++ rest).drop (padded width n).length = rest := List.drop_left' rfl
  rw [takeField, dropBlanks_padded, ht, List.takeWhile_eq_self_iff.2 isDigit_padded, hd,
    valueOf_padded]
  simp [padded_ne_nil]

theorem takeYear_digit {c : Char} (hc : c.isDigit = true) (r : List Char) :
    takeYear (c :: r) = (takeField 4 (c :: r)).map fun (y, rest) => ((y : Int), rest) := by
  unfold takeYear
  rw [dropBlanks_cons (isBlank_of_isDigit hc)]
  split
  · next h => cases h; exact absurd hc (by decide)
  · next h => cases h; exact absurd hc (by decide)
  · rfl

theorem takeYear_yearText (year : Int) {rest : List Char}
    (hr : ∀ c ∈ rest.head?, c.isDigit = false) :
    takeYear (yearText year ++ rest) = some (year, rest) := by
  have signed (sign : Int) (hs : sign * year.natAbs = year) :
      takeYear.signed sign (padded 4 year.natAbs ++ rest) = some (year, rest) := by
    rw [takeYear.signed, takeWhile_row isDigit_padded hr, dropWhile_row isDigit_padded hr,
      valueOf_padded, hs]
    simp [padded_ne_nil]
  unfold yearText
  by_cases h : 0 ≤ year ∧ year ≤ 9999
  · rw [if_pos h]
    have hf : takeField 4 (padded 4 year.toNat ++ rest) = some (year.toNat, rest) :=
      takeField_padded (by decide) (by change _ < 10000; omega) rest
    cases hp : padded 4 year.toNat with
    | nil => exact absurd hp padded_ne_nil
    | cons c r =>
        have hc : c.isDigit = true := isDigit_padded c (hp ▸ List.mem_cons_self)
        rw [hp, List.cons_append] at hf
        rw [List.cons_append, takeYear_digit hc, hf, Option.map_some]
        simp only [Int.toNat_of_nonneg h.1]
  · rw [if_neg h]
    by_cases hneg : year < 0
    · rw [if_pos hneg]
      exact signed (-1) (by omega)
    · rw [if_neg hneg]
      exact signed 1 (by omega)

theorem takeFraction_fractionText (h : n < pow10 9) :
    takeFraction (fractionText n ++ ['Z']) = some (n, ['Z']) := by
  have read (width m : Nat) (hw : 0 < width) (hw9 : width ≤ 9) (hm : m < pow10 width)
      (hn : m * pow10 (9 - width) = n) :
      takeFraction ('.' :: padded width m ++ ['Z']) = some (n, ['Z']) := by
    have hz : ∀ c ∈ (['Z'] : List Char).head?, c.isDigit = false := by
      intro c hc
      cases hc
      decide
    have hl := length_padded hw hm
    have ht : (padded width m).take 9 = padded width m := List.take_of_length_le (by omega)
    rw [List.cons_append, takeFraction, takeWhile_row isDigit_padded hz,
      dropWhile_row isDigit_padded hz, ht, valueOf_padded, hl, hn]
    simp [padded_ne_nil]
  change n < 1000000000 at h
  unfold fractionText
  by_cases h0 : n = 0
  · rw [if_pos h0, h0]
    rfl
  · rw [if_neg h0]
    split
    · exact read 3 _ (by decide) (by decide) (by change _ < 1000; omega)
        (by change _ * 1000000 = _; omega)
    · split
      · exact read 6 _ (by decide) (by decide) (by change _ < 1000000; omega)
          (by change _ * 1000 = _; omega)
      · exact read 9 _ (by decide) (by decide) h (Nat.mul_one n)

theorem takeMark_cons {mark : Char} (h : isBlank mark = false) (r : List Char) :
    takeMark mark (mark :: r) = some r := by
  rw [takeMark, dropBlanks_cons h]
  simp

end Fields

theorem takeOffset_utc : takeOffset (dropBlanks ['Z']) = some (0, []) := by decide

theorem ofChars?_fields {date : Date} {hour minute second fraction : Nat} (hdate : date.valid = true)
    (hfirst : firstYear ≤ date.year) (hlast : date.year ≤ lastYear) (hh : hour < 24)
    (hm : minute < 60) (hs : second ≤ 60) (hf : fraction < pow10 9) :
    ofChars? (yearText date.year ++ '-' :: (padded 2 date.month ++ '-' :: (padded 2 date.day ++
      'T' :: (padded 2 hour ++ ':' :: (padded 2 minute ++ ':' :: (padded 2 second ++
        (fractionText fraction ++ ['Z']))))))) =
      of? (date.toDays * daySeconds +
          (hour * 3600 + minute * 60 + (second - if second = 60 then 1 else 0) : Nat))
        (fraction + (if second = 60 then 1 else 0) * 1000000000) := by
  have hmonth : date.month < 100 := by
    simp only [Date.valid, Bool.and_eq_true, decide_eq_true_eq] at hdate
    omega
  have hday : date.day < 100 := by
    have hle := monthLength_le date.year date.month
    simp only [Date.valid, Bool.and_eq_true, decide_eq_true_eq] at hdate
    omega
  have field {n : Nat} (h : n < 100) (rest : List Char) :
      takeField 2 (padded 2 n ++ rest) = some (n, rest) := takeField_padded (by decide) h rest
  have dash (rest : List Char) : takeMark '-' ('-' :: rest) = some rest :=
    takeMark_cons (by decide) _
  have colon (rest : List Char) : takeMark ':' (':' :: rest) = some rest :=
    takeMark_cons (by decide) _
  have hyear (rest : List Char) :
      takeYear (yearText date.year ++ '-' :: rest) = some (date.year, '-' :: rest) := by
    apply takeYear_yearText
    simp only [List.head?_cons, Option.mem_some_iff]
    rintro c rfl
    decide
  have step {α : Type} {x : Option α} {a : α} {f : α → Option Instant} (h : x = some a) :
      (x >>= f) = f a := by rw [h]; rfl
  unfold ofChars?
  refine (step (hyear _)).trans ?_
  refine (step (dash _)).trans ?_
  refine (step (field hmonth _)).trans ?_
  refine (step (dash _)).trans ?_
  refine (step (field hday _)).trans ?_
  refine (step rfl).trans ?_
  refine (step (field (by omega : hour < 100) _)).trans ?_
  refine (step (colon _)).trans ?_
  refine (step (field (by omega : minute < 100) _)).trans ?_
  refine (step (colon _)).trans ?_
  refine (step (field (by omega : second < 100) _)).trans ?_
  refine (step (takeFraction_fractionText hf)).trans ?_
  refine (step takeOffset_utc).trans ?_
  refine (step (if_pos ?_)).trans ?_
  · simp [hdate, hh, hm, hs, dropBlanks]
  refine (step (if_pos ?_)).trans ?_
  · simp [hfirst, hlast]
  dsimp only
  rw [Int.sub_zero]

theorem of?_eq (t : Instant) : of? t.seconds t.nanos = some t := dif_pos t.inRange

/-- An instant is read from its own text. -/
theorem ofChars?_toChars (t : Instant) : ofChars? t.toChars = some t := by
  have hdiv : t.seconds.fdiv daySeconds = t.seconds / 86400 :=
    Int.fdiv_eq_ediv_of_nonneg _ (by decide)
  obtain ⟨⟨hearly, hlate⟩, hnanos⟩ := t.inRange
  unfold earliest daySeconds at hearly
  unfold latest daySeconds at hlate
  let days := t.seconds / 86400
  let time := (t.seconds - days * 86400).toNat
  let leap := if t.nanos < 1000000000 then 0 else 1
  have htime : time < 86400 ∧ (time : Int) = t.seconds - days * 86400 := by omega
  have hleap : t.nanos - leap * 1000000000 < 1000000000 ∧
      (if time % 60 + leap = 60 then 1 else 0) = leap ∧
      t.nanos - leap * 1000000000 + leap * 1000000000 = t.nanos ∧ leap ≤ 1 := by
    simp only [leap]
    split
    · rw [if_neg (by omega)]
      omega
    · rw [if_pos (by omega)]
      omega
  have htext : t.toChars = yearText (Date.ofDays days).year ++
      '-' :: (padded 2 (Date.ofDays days).month ++ '-' :: (padded 2 (Date.ofDays days).day ++
        'T' :: (padded 2 (time / 3600) ++ ':' :: (padded 2 (time / 60 % 60) ++
          ':' :: (padded 2 (time % 60 + leap) ++
            (fractionText (t.nanos - leap * 1000000000) ++ ['Z'])))))) := by
    simp only [toChars, hdiv, List.append_assoc, List.cons_append]
    rfl
  obtain ⟨hfirst, hlast⟩ := @year_ofDays days (by omega) (by omega)
  rw [htext, ofChars?_fields (ofDays_valid days) hfirst hlast (by omega) (by omega) (by omega)
    hleap.1, hleap.2.1, hleap.2.2.1, toDays_ofDays]
  convert of?_eq t using 2
  unfold daySeconds
  omega

end Instant

end SentenceScript
