import SentenceScript.Proofs.Underflow
import SentenceScript.Proofs.LetterCase

namespace SentenceScript

open Text

namespace Decimal

/-- One digit or more. -/
structure IsDigits (s : List Char) : Prop where
  ne_nil : s ≠ []
  digits : ∀ c ∈ s, c.isDigit = true

/-- A sign as written, and whether it is a minus. -/
inductive Signed : List Char → Bool → Prop
  | bare : Signed [] false
  | plus : Signed ['+'] false
  | minus : Signed ['-'] true

/-- Digits as written, with those before and those behind the point. On one side of the point there
may be none. -/
inductive Mantissa : List Char → List Char → List Char → Prop
  | whole {w : List Char} (h : IsDigits w) : Mantissa w w []
  | pointed {w f : List Char} (h : IsDigits w) (hf : ∀ c ∈ f, c.isDigit = true) :
      Mantissa (w ++ '.' :: f) w f
  | fraction {f : List Char} (h : IsDigits f) : Mantissa ('.' :: f) [] f

/-- A power of ten as written, or none. -/
inductive Power : List Char → Int → Prop
  | none : Power [] 0
  | exponent {mark : Char} {sign digits : List Char} {negative : Bool}
      (hm : mark = 'e' ∨ mark = 'E') (hs : Signed sign negative) (hd : IsDigits digits) :
      Power (mark :: (sign ++ digits)) (if negative then -(valueOf digits : Int) else valueOf digits)

/-- A decimal number as written, and the number that it is. -/
inductive Written : List Char → Decimal → Prop
  | mk {sign mantissa power whole fraction : List Char} {negative : Bool} {exponent : Int}
      (hs : Signed sign negative) (hm : Mantissa mantissa whole fraction)
      (hp : Power power exponent) : Written (sign ++ (mantissa ++ power))
        ⟨negative, valueOf (whole ++ fraction), exponent - fraction.length⟩

theorem isDigits_takeWhile {s : List Char} (h : s.takeWhile Char.isDigit ≠ []) :
    IsDigits (s.takeWhile Char.isDigit) :=
  ⟨h, fun _ hc => List.mem_takeWhile_imp hc⟩

theorem IsDigits.head {s rest : List Char} (h : IsDigits s) :
    ∀ c ∈ (s ++ rest).head?, c.isDigit = true := by
  intro c hc
  rw [List.head?_append_of_ne_nil _ h.ne_nil] at hc
  exact h.digits c (List.mem_of_mem_head? hc)

theorem signed_takeSign (s : List Char) :
    ∃ sign, Signed sign (takeSign s).1 ∧ s = sign ++ (takeSign s).2 := by
  unfold takeSign
  split
  · exact ⟨['-'], .minus, rfl⟩
  · exact ⟨['+'], .plus, rfl⟩
  · exact ⟨[], .bare, rfl⟩

theorem Signed.takeSign {sign rest : List Char} {negative : Bool} (h : Signed sign negative)
    (hr : ∀ c ∈ rest.head?, c ≠ '-' ∧ c ≠ '+') :
    Decimal.takeSign (sign ++ rest) = (negative, rest) := by
  cases h with
  | plus | minus => rfl
  | bare =>
      rw [List.nil_append]
      unfold Decimal.takeSign
      split
      · exact absurd rfl (hr '-' rfl).1
      · exact absurd rfl (hr '+' rfl).2
      · rfl

theorem not_sign_of_isDigit {c : Char} (h : c.isDigit = true) : c ≠ '-' ∧ c ≠ '+' := by
  constructor
  · rintro rfl
    cases h
  · rintro rfl
    cases h

theorem power?_eq_some_iff {s : List Char} {exponent : Int} :
    power? s = some exponent ↔ Power s exponent := by
  constructor
  · intro h
    cases s with
    | nil =>
        cases h
        exact .none
    | cons mark r =>
        obtain ⟨sign, hs, hr⟩ := signed_takeSign r
        simp only [power?] at h
        split at h
        · next hc =>
            cases h
            have hp := Power.exponent hc.1 hs ⟨hc.2.1, List.all_eq_true.1 hc.2.2⟩
            rwa [← hr] at hp
        · cases h
  · intro h
    cases h with
    | none => rfl
    | exponent hm hs hd =>
        have hsign := hs.takeSign fun c hc =>
          not_sign_of_isDigit (hd.digits c (List.mem_of_mem_head? hc))
        simp only [power?, hsign]
        rw [if_pos ⟨hm, hd.ne_nil, List.all_eq_true.2 hd.digits⟩]

theorem Power.head {s : List Char} {exponent : Int} (h : Power s exponent) :
    ∀ c ∈ s.head?, c.isDigit = false ∧ c ≠ '.' := by
  cases h with
  | none =>
      intro c hc
      cases hc
  | exponent hm hs hd =>
      rintro c ⟨⟩
      rcases hm with rfl | rfl
      · exact ⟨rfl, by decide⟩
      · exact ⟨rfl, by decide⟩

theorem written_of_unsigned? {negative : Bool} {s : List Char} {d : Decimal}
    (h : unsigned? negative s = some d) : ∃ mantissa power whole fraction exponent,
      Mantissa mantissa whole fraction ∧ Power power exponent ∧ s = mantissa ++ power ∧
        d = ⟨negative, valueOf (whole ++ fraction), exponent - fraction.length⟩ := by
  have hs := List.takeWhile_append_dropWhile (p := Char.isDigit) (l := s)
  simp only [unsigned?] at h
  split at h
  · next r hr =>
      have hrest := List.takeWhile_append_dropWhile (p := Char.isDigit) (l := r)
      rw [hr, ← hrest] at hs
      obtain ⟨hdigits, exponent, hp, rfl⟩ := by
        simpa only [Option.ite_none_left_eq_some, Option.map_eq_some_iff] using h
      have hp := power?_eq_some_iff.1 hp
      -- The point may come first, and then there are digits behind it.
      by_cases hw : s.takeWhile Char.isDigit = []
      · have hf : r.takeWhile Char.isDigit ≠ [] := by simpa [hw] using hdigits
        rw [hw] at hs ⊢
        exact ⟨_, _, _, _, _, .fraction (isDigits_takeWhile hf), hp, hs.symm, rfl⟩
      · refine ⟨_, _, _, _, _, .pointed (isDigits_takeWhile hw) fun c hc =>
          List.mem_takeWhile_imp hc, hp, ?_, rfl⟩
        rw [List.append_assoc]
        exact hs.symm
  · obtain ⟨hdigits, exponent, hp, rfl⟩ := by
      simpa only [Option.ite_none_left_eq_some, Option.map_eq_some_iff] using h
    have hw : s.takeWhile Char.isDigit ≠ [] := by simpa using hdigits
    refine ⟨_, _, _, _, _, .whole (isDigits_takeWhile hw), power?_eq_some_iff.1 hp, hs.symm, ?_⟩
    rw [List.append_nil, List.length_nil, Nat.cast_zero, sub_zero]

theorem Mantissa.unsigned? {mantissa whole fraction power : List Char} {exponent : Int}
    (hm : Mantissa mantissa whole fraction) (hp : Power power exponent) (negative : Bool) :
    Decimal.unsigned? negative (mantissa ++ power) =
      some ⟨negative, valueOf (whole ++ fraction), exponent - fraction.length⟩ := by
  have hpower := power?_eq_some_iff.2 hp
  have hend : ∀ c ∈ power.head?, c.isDigit = false := fun c hc => (hp.head c hc).1
  have hpoint : ∀ c ∈ ('.' :: (fraction ++ power)).head?, c.isDigit = false := by
    rintro _ ⟨⟩
    rfl
  cases hm with
  | whole h =>
      rw [Decimal.unsigned?, takeWhile_row h.digits hend, dropWhile_row h.digits hend]
      split
      · exact absurd rfl (hp.head '.' rfl).2
      · simp [h.ne_nil, hpower]
  | pointed h hf =>
      rw [List.append_assoc, List.cons_append, Decimal.unsigned?, takeWhile_row h.digits hpoint,
        dropWhile_row h.digits hpoint]
      simp [takeWhile_row hf hend, dropWhile_row hf hend, hpower, h.ne_nil]
  | fraction h =>
      have hmark : ¬ Char.isDigit '.' = true := Bool.false_ne_true
      rw [List.cons_append, Decimal.unsigned?, List.takeWhile_cons_of_neg hmark,
        List.dropWhile_cons_of_neg hmark]
      simp [takeWhile_row h.digits hend, dropWhile_row h.digits hend, hpower, h.ne_nil]

theorem Mantissa.head {mantissa whole fraction : List Char} (h : Mantissa mantissa whole fraction) :
    ∀ c ∈ mantissa.head?, c.isDigit = true ∨ c = '.' := by
  intro c hc
  cases h with
  | whole h => exact .inl (h.digits c (List.mem_of_mem_head? hc))
  | pointed h hf => exact .inl (h.head c hc)
  | fraction h =>
      cases hc
      exact .inr rfl

theorem Mantissa.ne_nil {mantissa whole fraction : List Char} (h : Mantissa mantissa whole fraction) :
    mantissa ≠ [] := by
  cases h with
  | whole h => exact h.ne_nil
  | pointed h hf => exact List.append_ne_nil_of_left_ne_nil h.ne_nil _
  | fraction h => exact List.cons_ne_nil _ _

theorem Mantissa.takeSign {sign mantissa whole fraction power : List Char} {negative : Bool}
    (h : Mantissa mantissa whole fraction) (hs : Signed sign negative) :
    Decimal.takeSign (sign ++ (mantissa ++ power)) = (negative, mantissa ++ power) := by
  refine hs.takeSign fun c hc => ?_
  rw [List.head?_append_of_ne_nil _ h.ne_nil] at hc
  rcases h.head c hc with hd | rfl
  · exact not_sign_of_isDigit hd
  · decide

/-- The reader accepts the decimal numbers as they are written, and nothing else. -/
theorem read?_eq_some_iff {s : List Char} {d : Decimal} : read? s = some d ↔ Written s d := by
  constructor
  · intro h
    obtain ⟨sign, hs, hbody⟩ := signed_takeSign s
    have h : unsigned? (takeSign s).1 (takeSign s).2 = some d := h
    obtain ⟨mantissa, power, whole, fraction, exponent, hm, hp, hrest, rfl⟩ := written_of_unsigned? h
    have hwritten := Written.mk hs hm hp
    rwa [← hrest, ← hbody] at hwritten
  · rintro ⟨hs, hm, hp⟩
    rw [read?, hm.takeSign hs]
    exact hm.unsigned? hp _

theorem Written.startsDecimal {s : List Char} {d : Decimal} (h : Written s d) :
    (Decimal.takeSign s).2.head?.any Value.startsDecimal = true := by
  obtain ⟨hs, hm, hp⟩ := h
  obtain ⟨c, r, he⟩ := List.exists_cons_of_ne_nil hm.ne_nil
  have hc := hm.head c (he ▸ rfl)
  rw [hm.takeSign hs, he]
  simpa [Value.startsDecimal] using hc

/-- A decimal number is rounded to an infinity at most. -/
theorem isNaN_toFloat (d : Decimal) : d.toFloat.isNaN = false := by
  rcases (magnitudeBits_le d.digits d.exponent).lt_or_eq with hlt | hinf
  · refine (Binary64.not_nan_of_finite ((Binary64.isFinite_iff _).2 ?_)).1
    rwa [bitsOf_toFloat d hlt]
  · rw [toFloat, hinf]
    cases d.negative with
    | true | false => decide +kernel

end Decimal

namespace Value

theorem word?_eq_none {s : List Char}
    (h : (Decimal.takeSign s).2.head?.any startsDecimal = true) : word? s = none := by
  rw [word?, Option.map_eq_none_iff]
  cases hs : (Decimal.takeSign s).2 with
  | nil => rfl
  | cons c r =>
      have hc : c.isDigit = true ∨ c = '.' := by simpa [hs, startsDecimal] using h
      have hlower : c.toLower = c := hc.elim toLower_of_isDigit (fun he => by rw [he]; rfl)
      have hi : (c == 'i') = false := beq_false_of_ne fun he => by simp [he] at hc
      have hn : (c == 'n') = false := beq_false_of_ne fun he => by simp [he] at hc
      simp [words, List.lookup_cons, hlower, hi, hn]

/-- Behind the guard only the decimals are left. -/
theorem parseDecimal?_eq (s : List Char) :
    parseDecimal? s = (Decimal.read? s).map Decimal.toFloat := by
  rw [parseDecimal?]
  split
  · next h => rw [parse?, word?_eq_none h, Option.or_none]
  · next h =>
      have hread : Decimal.read? s = none := Option.eq_none_iff_forall_ne_some.2 fun d hd =>
        h (Decimal.read?_eq_some_iff.1 hd).startsDecimal
      rw [hread, Option.map_none]

theorem coerce_of_blank {s : String} (h : strip s.toList = []) : coerce s = 0 := by
  rw [coerce, h]
  rfl

theorem coerce_of_written {s : String} {d : Decimal} (h : Decimal.Written (strip s.toList) d) :
    coerce s = d.toFloat := by
  have hread := Decimal.read?_eq_some_iff.2 h
  have hne : strip s.toList ≠ [] := fun he => by
    rw [he] at hread
    cases hread
  rw [coerce, if_neg (by simpa using hne), parseDecimal?_eq, hread, Option.map_some, Option.getD_some]

theorem isNaN_coerce_iff (s : String) : (coerce s).isNaN = true ↔
    strip s.toList ≠ [] ∧ ∀ d, ¬ Decimal.Written (strip s.toList) d := by
  constructor
  · intro h
    refine ⟨fun hs => ?_, fun d hd => ?_⟩
    · rw [coerce_of_blank hs] at h
      cases h
    · rw [coerce_of_written hd, d.isNaN_toFloat] at h
      cases h
  · rintro ⟨hs, hd⟩
    have hread : Decimal.read? (strip s.toList) = none :=
      Option.eq_none_iff_forall_ne_some.2 fun d h => hd d (Decimal.read?_eq_some_iff.1 h)
    rw [coerce, if_neg (by simpa using hs), parseDecimal?_eq, hread]
    decide +kernel

/-- Of the words for what is no finite number, none is read, in any case and with any sign. -/
theorem not_written_of_word {s sign word : List Char} (hs : sign ∈ [[], ['+'], ['-']])
    (hw : word ∈ ["inf".toList, "infinity".toList, "nan".toList]) (h : lower s = sign ++ word)
    (d : Decimal) : ¬ Decimal.Written s d := by
  intro hd
  have hread := Decimal.read?_lower s
  rw [h, Decimal.read?_eq_some_iff.2 hd] at hread
  fin_cases hs <;> fin_cases hw <;> cases hread

/-- A number in a sentence is the number that its text alone is read as. -/
theorem coerce_of_isNumeral {s : List Char} {x : Float} (h : IsNumeral s x) :
    coerce (String.ofList s) = x := by
  have hblank : ∀ c ∈ s, isBlank c = false := by
    intro c hc
    rcases h.chars c hc with rfl | rfl | hd
    · rfl
    · rfl
    · exact isBlank_of_isDigit hd
  have hstrip : strip (String.ofList s).toList = s := by
    rw [String.toList_ofList]
    exact strip_eq_self (fun c hc => hblank c (List.mem_of_mem_head? hc)) h.last_not_blank
  obtain ⟨d, hread, hd⟩ := Option.map_eq_some_iff.1 h.value_eq
  rw [coerce_of_written (hstrip.symm ▸ Decimal.read?_eq_some_iff.1 hread), hd]

end Value

/-- A text without the blanks around it is read as a number exactly if it is a decimal number in full.
What is blank is zero, every other text is no number, and so are the words for an infinity and for
what is no number. A number in a sentence that creates a variable is what its text is read as. -/
theorem coercion_accepts_decimals :
    (∀ s : String, (Value.text s).toNumber.isNaN = true ↔
      strip s.toList ≠ [] ∧ ∀ d, ¬ Decimal.Written (strip s.toList) d) ∧
    (∀ (s : String) (d : Decimal), Decimal.Written (strip s.toList) d →
      (Value.text s).toNumber = d.toFloat) ∧
    (∀ s : String, strip s.toList = [] → (Value.text s).toNumber = 0) ∧
    (∀ (s : String) (sign word : List Char), sign ∈ [[], ['+'], ['-']] →
      word ∈ ["inf".toList, "infinity".toList, "nan".toList] →
      (strip s.toList).map Char.toLower = sign ++ word →
      (Value.text s).toNumber.isNaN = true) ∧
    ∀ (line : String) (name : Identifier) (x : Literal),
      Shape.createNumber.Spells [.name name, .number x] (strip line.toList) →
      (Sentence.classify line).command =
        .createNumber name.text (Value.text (String.ofList x.chars)).toNumber := by
  refine ⟨Value.isNaN_coerce_iff, fun s d => Value.coerce_of_written, fun s => Value.coerce_of_blank,
    fun s sign word hs hw h => ?_, fun line name x h => ?_⟩
  · refine (Value.isNaN_coerce_iff s).2 ⟨fun he => ?_, Value.not_written_of_word hs hw h⟩
    rw [he] at h
    obtain ⟨-, rfl⟩ := List.append_eq_nil_iff.1 h.symm
    simp at hw
  · rw [← String.toList_ofList (l := strip line.toList)] at h
    have hc := Sentence.classify_of_spells h rfl (by decide)
    have hx : (Value.text (String.ofList x.chars)).toNumber = x.value :=
      Value.coerce_of_isNumeral x.isNumeral
    rw [hx, ← hc]
    exact congrArg Sentence.command (Sentence.classify_trim line).symm

/-- A point may come first, and a sign stand before the exponent. -/
theorem coercion_accepts_decimals_signed :
    (Value.text "\t+.5E-03\n").toNumber = Decimal.toFloat ⟨false, 5, -4⟩ ∧
      (Value.text "\n ").toNumber = 0 ∧ (Value.text " -InFinity").toNumber.isNaN = true ∧
      (Sentence.classify " Create a NUMBER called x with value -0.50").command =
        .createNumber "x" (Value.text "-0.50").toNumber := by
  obtain ⟨-, hwritten, hblank, hword, hliteral⟩ := coercion_accepts_decimals
  refine ⟨?_, hblank "\n " rfl, hword " -InFinity" ['-'] _ (by simp) (.tail _ (.head _)) rfl, ?_⟩
  · have hfive : Decimal.IsDigits ['5'] := ⟨by simp, List.all_eq_true.1 rfl⟩
    have hthree : Decimal.IsDigits ['0', '3'] := ⟨by simp, List.all_eq_true.1 rfl⟩
    exact hwritten "\t+.5E-03\n" _ (.mk .plus (.fraction hfive) (.exponent (.inr rfl) .minus hthree))
  · let name : Identifier := ⟨'x', [], .inl rfl, List.forall_mem_nil _⟩
    let x : Literal := ⟨true, ['0'], ['5', '0'], by simp, List.all_eq_true.1 rfl⟩
    have h : Shape.createNumber.Spells [.name name, .number x] _ :=
      ⟨_, List.mem_singleton.2 rfl, .words "create " "Create ".toList (by decide) rfl <|
        .words "a " "a ".toList (by decide) rfl <|
        .words "number called " "NUMBER called ".toList (by decide) rfl <| .slot (.name name) <|
        .words " with value " " with value ".toList (by decide) rfl <| .slot (.number x) .nil⟩
    exact hliteral " Create a NUMBER called x with value -0.50" name x h

end SentenceScript
