import SentenceScript.Proofs.Feeding
import SentenceScript.Proofs.Numerals

namespace SentenceScript

open Text

namespace Text

/-- A line as scripts are cut into. -/
structure IsLine (s : List Char) : Prop where
  ne_nil : s ≠ []
  strip_eq : strip s = s
  one_row : '\n' ∉ s

theorem rows_of_not_mem {s : List Char} (h : '\n' ∉ s) : rows s = [s] := by
  induction s with
  | nil => rfl
  | cons c r ih =>
      rw [List.mem_cons, not_or] at h
      rw [rows, if_neg (Ne.symm h.1), ih h.2]

theorem scriptLines_intercalate {all : List (List Char)} (h : ∀ s ∈ all, IsLine s) :
    scriptLines ("\n".intercalate (all.map String.ofList)) = all.map String.ofList := by
  have hrow {s : List Char} (hs : IsLine s) :
      ([s].map strip).filterMap (fun row => if row.isEmpty then none else some (String.ofList row)) =
        [String.ofList s] := by
    simp [hs.strip_eq, hs.ne_nil]
  unfold scriptLines
  induction all with
  | nil => rfl
  | cons s all ih =>
      have hs := h s (by simp)
      cases all with
      | nil =>
          rw [List.map_singleton, String.intercalate_singleton, String.toList_ofList,
            rows_of_not_mem hs.one_row, hrow hs]
      | cons t all =>
          have hjoin : ("\n".intercalate ((s :: t :: all).map String.ofList)).toList =
              s ++ '\n' :: ("\n".intercalate ((t :: all).map String.ofList)).toList := by
            simp
          rw [hjoin, rows_append, rows_of_not_mem hs.one_row, List.map_append, List.filterMap_append,
            hrow hs, ih fun r hr => h r (by simp [hr])]
          rfl

end Text

namespace Slot

def IsName (s : List Char) : Prop :=
  ∃ c r, s = c :: r ∧ isNameStart c = true ∧ ∀ d ∈ r, isNamePart d = true

theorem IsName.not_mem {s : List Char} (h : IsName s) {c : Char} (hc : isNamePart c = false) :
    c ∉ s := by
  obtain ⟨d, r, rfl, hd, hr⟩ := h
  have hd' : isNamePart d = true := by rw [isNamePart, hd, Bool.true_or]
  intro hm
  rcases List.mem_cons.1 hm with rfl | hm
  · exact absurd hd' (by rw [hc]; nofun)
  · exact absurd (hr c hm) (by rw [hc]; nofun)

theorem takeName_append {s rest : List Char} (h : IsName s)
    (hr : ∀ c ∈ rest.head?, isNamePart c = false) : takeName (s ++ rest) = some ([s], rest) := by
  obtain ⟨c, r, rfl, hc, hp⟩ := h
  rw [List.cons_append, takeName, if_pos hc, takeWhile_row hp hr, dropWhile_row hp hr]

theorem takeQuoted_append {s : List Char} (h : '"' ∉ s) (rest : List Char) :
    takeQuoted ('"' :: (s ++ '"' :: rest)) = some ([s], rest) := by
  have hs : ∀ c ∈ s, (c != '"') = true := by
    intro c hc
    rw [bne_iff_ne]
    rintro rfl
    exact h hc
  have hr : ∀ c ∈ ('"' :: rest).head?, (c != '"') = false := by
    intro c hc
    cases hc
    rfl
  rw [takeQuoted, takeWhile_row hs hr, dropWhile_row hs hr]
  rfl

theorem takeCount_append {s rest : List Char} (hne : s ≠ []) (hd : ∀ c ∈ s, c.isDigit = true)
    (hr : ∀ c ∈ rest.head?, c.isDigit = false) : takeCount (s ++ rest) = some ([s], rest) := by
  rw [takeCount, takeWhile_row hd hr, dropWhile_row hd hr, if_neg (by rwa [List.isEmpty_iff])]

/-- A phrase is taken whole: the phrases differ in their first letters, so no other starts the text. -/
theorem takePhrase_append {a : String × Comparison} {s : List Char} (ha : a ∈ Comparison.phrases)
    (hs : s.map fold = a.1.toList) (rest : List Char) :
    takePhrase (s ++ rest) = some ([s], rest) := by
  have hfirst : ∀ a ∈ Comparison.phrases, ∀ b ∈ Comparison.phrases,
      a.1.toList.head? = b.1.toList.head? → a = b := by decide
  have hne : ∀ a ∈ Comparison.phrases, a.1.toList ≠ [] := by decide
  have heat : eat? a.1.toList (s ++ rest) = some rest := eat?_append hs rest
  have hother : ∀ b ∈ Comparison.phrases, ∀ r, eat? b.1.toList (s ++ rest) = some r → b = a := by
    intro b hb r hr
    have hhead := congrArg List.head? (map_fold_of_eat? hr)
    rw [List.map_append, hs, List.head?_append_of_ne_nil _ (hne a ha),
      List.head?_append_of_ne_nil _ (hne b hb)] at hhead
    exact hfirst b hb a ha hhead.symm
  cases hp : takePhrase (s ++ rest) with
  | none =>
      have hnone := List.findSome?_eq_none_iff.1 hp a ha
      simp only [heat] at hnone
      cases hnone
  | some t =>
      obtain ⟨b, hb, ht⟩ := List.exists_of_findSome?_eq_some hp
      obtain ⟨r, hr, rfl⟩ := Option.map_eq_some_iff.1 ht
      cases hother b hb r hr
      rw [heat] at hr
      cases hr
      have hlen : a.1.length = s.length := by
        rw [← String.length_toList, ← hs, List.length_map]
      rw [hlen, List.take_left]

section Number

open Decimal

variable {whole fraction rest : List Char}

/-- What a number may be followed by. -/
def EndsNumber (rest : List Char) : Prop := ∀ c ∈ rest.head?, c.isDigit = false ∧ c ≠ '.'

theorem takeUnsigned_append (h : Digits whole fraction) (hr : EndsNumber rest) :
    takeUnsigned (whole ++ (point fraction ++ rest)) = some (whole ++ point fraction, rest) := by
  have hne : whole.isEmpty = false := by simpa using h.whole_ne_nil
  have hrest : ∀ c ∈ rest.head?, c.isDigit = false := fun c hc => (hr c hc).1
  cases fraction with
  | nil =>
      have hp : point [] ++ rest = rest := rfl
      rw [hp, takeUnsigned, takeWhile_row h.whole_digits hrest, dropWhile_row h.whole_digits hrest]
      simp only [hne, Bool.false_eq_true, if_false, point, List.isEmpty_nil, if_true,
        List.append_nil]
      split
      · next r => exact absurd rfl (hr '.' rfl).2
      · rfl
  | cons f fs =>
      have hp : ∀ c ∈ (point (f :: fs) ++ rest).head?, c.isDigit = false := by
        intro c hc
        cases hc
        rfl
      rw [takeUnsigned, takeWhile_row h.whole_digits hp, dropWhile_row h.whole_digits hp]
      have hpoint : point (f :: fs) ++ rest = '.' :: ((f :: fs) ++ rest) := rfl
      simp only [hpoint, hne, takeWhile_row h.fraction_digits hrest,
        dropWhile_row h.fraction_digits hrest]
      rfl

theorem takeNumber_append (h : Digits whole fraction) (negative : Bool) (hr : EndsNumber rest) :
    takeNumber (signChars negative ++ (whole ++ point fraction) ++ rest) =
      some ([signChars negative ++ (whole ++ point fraction)], rest) := by
  have hu := takeUnsigned_append h hr
  rw [List.append_assoc, List.append_assoc]
  cases negative with
  | true =>
      change (takeUnsigned (whole ++ (point fraction ++ rest))).map _ = _
      rw [hu]
      rfl
  | false =>
      obtain ⟨c, r, rfl, hc⟩ := h.exists_cons
      change takeNumber (c :: (r ++ (point fraction ++ rest))) =
        some ([c :: (r ++ point fraction)], rest)
      rw [List.cons_append] at hu
      unfold takeNumber
      split
      · next he =>
          cases he
          exact absurd hc (by decide)
      · rw [hu]
        rfl

end Number

end Slot

/-- A text that is a number from end to end, and its value. -/
structure IsNumeral (s : List Char) (x : Float) : Prop where
  take_append : ∀ rest, Slot.EndsNumber rest → Slot.takeNumber (s ++ rest) = some ([s], rest)
  value_eq : Sentence.number? s = some x
  chars : ∀ c ∈ s, c = '-' ∨ c = '.' ∨ c.isDigit = true
  ends : ∃ c, s.getLast? = some c ∧ c.isDigit = true

namespace Decimal

theorem Digits.isNumeral {whole fraction : List Char} (h : Digits whole fraction)
    (negative : Bool) : IsNumeral (signChars negative ++ (whole ++ point fraction))
      (toFloat ⟨negative, valueOf (whole ++ fraction), -fraction.length⟩) where
  take_append _ hr := Slot.takeNumber_append h negative hr
  value_eq := by rw [Sentence.number?, h.read?_eq negative]; rfl
  chars := by
    intro c hc
    rcases List.mem_append.1 hc with hc | hc
    · cases negative with
      | true => exact .inl (List.mem_singleton.1 hc)
      | false => cases hc
    · rcases List.mem_append.1 hc with hc | hc
      · exact .inr (.inr (h.whole_digits c hc))
      · unfold point at hc
        split at hc
        · cases hc
        · rcases List.mem_cons.1 hc with rfl | hc
          · exact .inr (.inl rfl)
          · exact .inr (.inr (h.fraction_digits c hc))
  ends := by
    by_cases hf : fraction = []
    · subst hf
      refine ⟨whole.getLast h.whole_ne_nil, ?_, h.whole_digits _ (List.getLast_mem _)⟩
      rw [point, List.isEmpty_nil, if_pos rfl, List.append_nil,
        List.getLast?_append_of_ne_nil _ h.whole_ne_nil, List.getLast?_eq_some_getLast]
    · refine ⟨fraction.getLast hf, ?_, h.fraction_digits _ (List.getLast_mem _)⟩
      have hp : point fraction = ['.'] ++ fraction := by simp [point, hf]
      rw [hp, ← List.append_assoc, ← List.append_assoc, List.getLast?_append_of_ne_nil _ hf,
        List.getLast?_eq_some_getLast]

theorem isNumeral_digitChars (n : Nat) : IsNumeral (digitChars n) (toFloat ⟨false, n, 0⟩) := by
  have h := (spelled_count n).isNumeral false
  rwa [point, List.isEmpty_nil, if_pos rfl, List.append_nil, valueOf_digitChars] at h

/-- The text of a finite number reads back, but for the sign of zero. -/
theorem isNumeral_numberText {x : Float} (hx : x.isFinite = true) :
    IsNumeral (numberText x).toList (if x == 0 then 0 else x) := by
  obtain ⟨hnan, hinf⟩ := Binary64.not_nan_of_finite hx
  rw [numberText, hnan, hinf, if_neg nofun, if_neg nofun]
  by_cases h0 : (x == 0) = true
  · rw [if_pos h0, if_pos h0]
    exact isNumeral_digitChars 0
  · rw [if_neg h0, if_neg h0, String.toList_ofList]
    obtain ⟨whole, fraction, hs, -, hplain⟩ :=
      plain_spelled (ofFloat .up x) (ofFloat_exponent hx .up)
    have hvalue : toFloat ⟨(ofFloat .up x).negative, valueOf (whole ++ fraction),
        -fraction.length⟩ = x := toFloat_eq hx (ofFloat_negative .up x) hs.magnitude_eq
    have h := hs.isNumeral (ofFloat .up x).negative
    rwa [← hplain, hvalue] at h

end Decimal

namespace IsNumeral

variable {s : List Char} {x : Float}

theorem take_eq (h : IsNumeral s x) : Slot.takeNumber s = some ([s], []) := by
  have ht := h.take_append [] nofun
  rwa [List.append_nil] at ht

theorem ne_nil (h : IsNumeral s x) : s ≠ [] := by
  obtain ⟨c, hc, -⟩ := h.ends
  rintro rfl
  cases hc

theorem not_mem (h : IsNumeral s x) {c : Char} (hm : c ≠ '-') (hp : c ≠ '.')
    (hd : c.isDigit = false) : c ∉ s := by
  intro hc
  rcases h.chars c hc with he | he | he
  · exact hm he
  · exact hp he
  · rw [hd] at he
    cases he

theorem last_not_blank (h : IsNumeral s x) : ∀ c ∈ s.getLast?, isBlank c = false := by
  obtain ⟨d, hd, hdigit⟩ := h.ends
  intro c hc
  rw [hd] at hc
  cases hc
  exact isBlank_of_isDigit hdigit

end IsNumeral

/-- A line outside loops does what its command does. -/
theorem State.feed_line (world : World) {s : State} (hs : s.loop = .closed) {l : List Char}
    (hl : IsLine l) {command : Command}
    (hc : (Sentence.classify (String.ofList l)).command = command)
    (hn : ∀ c yes no, command ≠ .conditional c yes no) :
    feed world (String.ofList l) s =
      Sentence.act world (Replay.close world) ⟨String.ofList l, command⟩ s := by
  have ht : trim (String.ofList l) = String.ofList l := by
    rw [trim, String.toList_ofList, hl.strip_eq]
  have hb : (trim (String.ofList l)).isEmpty = false := by
    rw [ht, ← Bool.not_eq_true, String.isEmpty_iff, ← String.toList_inj, String.toList_ofList]
    exact hl.ne_nil
  have hsentence : Sentence.classify (String.ofList l) = ⟨String.ofList l, command⟩ := by
    rw [← hc, Sentence.classify, ht]
  rw [feed_idle hb (by rw [hs]; rfl), ht, execute, Sentence.execute_leaf _ _ (by rwa [hc]),
    hsentence]

end SentenceScript
