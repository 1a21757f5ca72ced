import SentenceScript.Json.Read
import SentenceScript.Proofs.Numerals

namespace SentenceScript.Json

open Text Decimal

/-! Strings -/

/-- How a character of a string comes back from its escape. -/
def unitOf (c : Char) : StringUnit :=
  if c.toNat < 0x20 ∧ c ≠ '\n' ∧ c ≠ '\r' ∧ c ≠ '\t' ∧ c.toNat ≠ 8 ∧ c.toNat ≠ 12 then .code c.toNat
  else .char c

theorem stringUnits_plain {c : Char} (hq : c ≠ '"') (hb : c ≠ '\\') (hc : ¬c.toNat < 0x20)
    (r : List Char) :
    stringUnits (c :: r) = (.char c :: (stringUnits r).1, (stringUnits r).2) := by
  rw [stringUnits.eq_def]
  split <;> simp_all

theorem hexValue?_digitChar : ∀ n < 16, hexValue? n.digitChar = some n := by decide

theorem hexCode?_control {n : Nat} (h : n < 0x20) :
    hexCode? '0' '0' (n / 16).digitChar (n % 16).digitChar = some n := by
  have h0 : hexValue? '0' = some 0 := by decide
  have hsum : 0 * 4096 + 0 * 256 + n / 16 * 16 + n % 16 = n := by omega
  simp only [hexCode?, h0, hexValue?_digitChar (n / 16) (by omega),
    hexValue?_digitChar (n % 16) (by omega), Option.bind_eq_bind, Option.bind_some, pure, hsum]

theorem stringUnits_mark {e c : Char} (he : escaped? e = some c) (hu : e ≠ 'u') (r : List Char) :
    stringUnits ('\\' :: e :: r) = (.char c :: (stringUnits r).1, (stringUnits r).2) := by
  rw [stringUnits.eq_def]
  split
  case h_7 hother heq =>
    cases heq
    exact absurd rfl (hother e r rfl)
  all_goals simp_all

theorem stringUnits_escape (c : Char) (r : List Char) :
    stringUnits (escape c ++ r) = (unitOf c :: (stringUnits r).1, (stringUnits r).2) := by
  unfold escape
  split
  · next h => subst h; exact stringUnits_mark (by decide) (by decide) r
  split
  · next h => subst h; exact stringUnits_mark (by decide) (by decide) r
  split
  · next h => subst h; exact stringUnits_mark (by decide) (by decide) r
  split
  · next h => subst h; exact stringUnits_mark (by decide) (by decide) r
  split
  · next h => subst h; exact stringUnits_mark (by decide) (by decide) r
  split
  · next h =>
      obtain rfl : c = '\x08' := Char.toNat_inj.1 h
      exact stringUnits_mark (by decide) (by decide) r
  split
  · next h =>
      obtain rfl : c = '\x0c' := Char.toNat_inj.1 h
      exact stringUnits_mark (by decide) (by decide) r
  split
  · next h =>
      have hc := hexCode?_control h
      have hu : unitOf c = .code c.toNat := by simp_all [unitOf]
      simp only [List.cons_append, List.nil_append, stringUnits, hc, hu]
  · next h =>
      have hu : unitOf c = .char c := by simp_all [unitOf]
      rw [hu]
      exact stringUnits_plain ‹_› ‹_› h r

theorem stringUnits_quoted (cs rest : List Char) :
    stringUnits (cs.flatMap escape ++ '"' :: rest) = (cs.map unitOf, .ok rest) := by
  induction cs with
  | nil => rfl
  | cons c cs ih =>
      rw [List.flatMap_cons, List.append_assoc, stringUnits_escape, ih]
      rfl

theorem joinUnits_code {n : Nat} (h : n < 0x20) (units : List StringUnit) (stop : Except Fault Unit) :
    joinUnits (.code n :: units) stop = (joinUnits units stop).map (Char.ofNat n :: ·) := by
  have hl : isLeading n = false := by simp [isLeading]; omega
  have ht : isTrailing n = false := by simp [isTrailing]; omega
  rw [joinUnits.eq_def]
  split <;> simp_all

theorem joinUnits_unitOf (cs : List Char) : joinUnits (cs.map unitOf) (.ok ()) = .ok cs := by
  induction cs with
  | nil => rfl
  | cons c cs ih =>
      rw [List.map_cons, unitOf]
      split
      · next h => rw [joinUnits_code h.1, ih, Char.ofNat_toNat]; rfl
      · rw [joinUnits, ih]; rfl

theorem scanString_quoted (s : String) (rest : List Char) :
    scanString (s.toList.flatMap escape ++ '"' :: rest) = (⟨.ok s, .ok ()⟩, some rest) := by
  rw [scanString, stringUnits_quoted]
  have hj := joinUnits_unitOf s.toList
  simp [Except.map, hj, Except.toOption]

/-! Numbers -/

/-- No number goes on here. -/
def Ends (rest : List Char) : Prop :=
  ∀ c ∈ rest.head?, c.isDigit = false ∧ c ≠ '.' ∧ c ≠ 'e' ∧ c ≠ 'E'

section Number

variable {d : Decimal} {whole fraction rest : List Char} (negative : Bool)

theorem Ends.noDigit (h : Ends rest) : ∀ c ∈ rest.head?, c.isDigit = false := fun c hc => (h c hc).1

theorem scanNumber_whole (h : Spelled d whole []) (hr : Ends rest) :
    scanNumber negative (whole ++ rest) =
      (⟨(wholeNumeral negative (valueOf whole)).elim (realNumeral ⟨negative, valueOf whole, 0⟩) .ok,
        .ok ()⟩, some rest) := by
  have hlead : ¬(whole.length ≠ 1 ∧ whole.head? = some '0') := by
    rcases h.leading with h | h <;> simp [h]
  rw [scanNumber, takeWhile_row h.whole_digits hr.noDigit, dropWhile_row h.whole_digits hr.noDigit]
  simp only [List.isEmpty_eq_false_iff.2 h.whole_ne_nil, Bool.false_eq_true, if_false, if_neg hlead]
  cases rest with
  | nil => rfl
  | cons c r =>
      obtain ⟨-, hp, he, hE⟩ := hr c rfl
      split <;> simp_all

theorem scanNumber_point (h : Spelled d whole fraction) (hf : fraction ≠ []) (hr : Ends rest) :
    scanNumber negative (whole ++ '.' :: (fraction ++ rest)) =
      (⟨realNumeral ⟨negative, valueOf (whole ++ fraction), -fraction.length⟩, .ok ()⟩,
        some rest) := by
  have hlead : ¬(whole.length ≠ 1 ∧ whole.head? = some '0') := by
    rcases h.leading with h | h <;> simp [h]
  have hp : ∀ c ∈ ('.' :: (fraction ++ rest)).head?, c.isDigit = false := by
    simp only [List.head?_cons, Option.mem_some_iff]
    rintro c rfl
    decide
  rw [scanNumber, takeWhile_row h.whole_digits hp, dropWhile_row h.whole_digits hp]
  simp only [List.isEmpty_eq_false_iff.2 h.whole_ne_nil, Bool.false_eq_true, if_false, if_neg hlead,
    takeWhile_row h.fraction_digits hr.noDigit, dropWhile_row h.fraction_digits hr.noDigit,
    List.isEmpty_eq_false_iff.2 hf]
  cases rest with
  | nil => rfl
  | cons c r =>
      obtain ⟨-, -, he, hE⟩ := hr c rfl
      split <;> simp_all

theorem scanNumber_power (h : Spelled d whole fraction) (tail : List Char) :
    scanNumber negative (whole ++ (point fraction ++ 'e' :: tail)) =
      scanExponent negative whole fraction tail := by
  have hlead : ¬(whole.length ≠ 1 ∧ whole.head? = some '0') := by
    rcases h.leading with h | h <;> simp [h]
  have hmark {c : Char} (hc : c.isDigit = false) (r : List Char) :
      ∀ x ∈ (c :: r).head?, x.isDigit = false := by
    simp only [List.head?_cons, Option.mem_some_iff]
    rintro x rfl
    exact hc
  have he := hmark (by decide : Char.isDigit 'e' = false) tail
  cases fraction with
  | nil =>
      have hd : (whole ++ 'e' :: tail).dropWhile Char.isDigit = 'e' :: tail :=
        dropWhile_row h.whole_digits he
      simp only [point, List.isEmpty_nil, if_true, List.nil_append, scanNumber,
        takeWhile_row h.whole_digits he, hd, List.isEmpty_eq_false_iff.2 h.whole_ne_nil,
        Bool.false_eq_true, if_false, if_neg hlead]
  | cons f fs =>
      have hp := hmark (by decide : Char.isDigit '.' = false) (f :: fs ++ 'e' :: tail)
      have hd := dropWhile_row h.whole_digits hp
      simp only [point, List.isEmpty_cons, Bool.false_eq_true, if_false, List.cons_append] at hp hd ⊢
      simp only [scanNumber, takeWhile_row h.whole_digits hp, hd,
        List.isEmpty_eq_false_iff.2 h.whole_ne_nil, Bool.false_eq_true, if_false, if_neg hlead]
      rw [← List.cons_append, takeWhile_row h.fraction_digits he, dropWhile_row h.fraction_digits he]
      rfl

theorem scanExponent_eq (power : Int) (hr : Ends rest) :
    scanExponent negative whole fraction
        ((if power < 0 then '-' else '+') :: (digitChars power.natAbs ++ rest)) =
      (⟨realNumeral ⟨negative, valueOf (whole ++ fraction), power - fraction.length⟩, .ok ()⟩,
        some rest) := by
  have hs : takeSign ((if power < 0 then '-' else '+') :: (digitChars power.natAbs ++ rest)) =
      (decide (power < 0), digitChars power.natAbs ++ rest) := by
    by_cases h : power < 0 <;> simp [h, takeSign]
  have hp : (if decide (power < 0) = true then -(power.natAbs : Int) else power.natAbs) = power := by
    by_cases h : power < 0
    · rw [if_pos (decide_eq_true h)]
      omega
    · rw [if_neg (by simpa using h)]
      omega
  simp only [scanExponent, hs, takeWhile_row (isDigit_digitChars _) hr.noDigit,
    dropWhile_row (isDigit_digitChars _) hr.noDigit, List.isEmpty_eq_false_iff.2 (digitChars_ne_nil _),
    Bool.false_eq_true, if_false, valueOf_digitChars, hp]

end Number

section Written

variable {x : Float}

theorem realNumeral_eq (hx : x.isFinite = true) {tie : Tie} {d : Decimal}
    (hs : d.negative = isNegative x) (h : d.magnitude = (ofFloat tie x).magnitude) :
    realNumeral d = .ok (.real x) := by
  rw [realNumeral, toFloat_eq hx hs h, if_pos hx]

/-- A finite number is read from the text that is written for it. -/
theorem scanNumber_numberChars (hx : x.isFinite = true) :
    ∃ c r, numberChars x = signChars (isNegative x) ++ c :: r ∧ c.isDigit = true ∧
      ∀ rest, Ends rest →
        scanNumber (isNegative x) (c :: r ++ rest) = (⟨.ok (.real x), .ok ()⟩, some rest) := by
  generalize hd : ofFloat .even x = d
  have hneg : d.negative = isNegative x := hd ▸ ofFloat_negative .even x
  have hzero : d.digits = 0 → d.exponent = 0 := hd ▸ ofFloat_exponent hx .even
  have hreal {digits : Nat} {exponent : Int}
      (h : magnitude ⟨d.negative, digits, exponent⟩ = d.magnitude) :
      realNumeral ⟨isNegative x, digits, exponent⟩ = .ok (.real x) := by
    rw [hneg, ← hd] at h
    exact realNumeral_eq hx rfl h
  unfold numberChars
  rw [if_pos hx]
  simp only [hd]
  split
  · -- With all places there is always a point.
    obtain ⟨whole, fraction, hs, hf, htext⟩ : ∃ whole fraction, Spelled d whole fraction ∧
        fraction ≠ [] ∧ d.plain ++ (if 0 ≤ d.exponent then ['.', '0'] else []) =
          signChars (isNegative x) ++ (whole ++ '.' :: fraction) := by
      obtain ⟨whole, fraction, hs, hnil, hp⟩ := plain_spelled d hzero
      by_cases he : 0 ≤ d.exponent
      · obtain rfl := hnil.2 he
        exact ⟨whole, ['0'], hs.zero, by simp, by simp [hp, he, point, hneg]⟩
      · have hne : fraction ≠ [] := fun h => he (hnil.1 h)
        exact ⟨whole, fraction, hs, hne, by simp [hp, he, point, hne, hneg]⟩
    obtain ⟨c, r, hw, hc⟩ := hs.exists_cons
    refine ⟨c, r ++ '.' :: fraction, by rw [htext, hw, List.cons_append], hc, fun rest hr => ?_⟩
    have hscan := scanNumber_point (isNegative x) hs hf hr
    rw [hreal hs.magnitude_eq, hw] at hscan
    simpa using hscan
  · obtain ⟨a, tail, hdigits, hs, htext⟩ := spelled_scientific d
    have ha : a.isDigit = true := hs.whole_digits a (by simp)
    refine ⟨a, _, by rw [htext, hneg]; rfl, ha, fun rest hr => ?_⟩
    have hscan := scanNumber_power (isNegative x) hs
      ((if d.exponent + tail.length < 0 then '-' else '+') ::
        (digitChars (d.exponent + tail.length).natAbs ++ rest))
    have hvalue : d.exponent + tail.length - tail.length = d.exponent := by omega
    rw [scanExponent_eq _ _ hr, hvalue, hdigits, hreal rfl] at hscan
    simpa using hscan

end Written

/-! Values -/

mutual

/-- What a reader finds in the text of a value. -/
def scanned : Json → Scan
  | null => .null
  | bool b => .bool b
  | count n => .number ⟨(wholeNumeral false n).elim (realNumeral ⟨false, n, 0⟩) .ok, .ok ()⟩
  | number x => if x.isFinite then .number ⟨.ok (.real x), .ok ()⟩ else .null
  | text s => .text ⟨.ok s, .ok ()⟩
  | array items => .array (scannedItems items) (.ok ())
  | object members => .object (scannedMembers members) (.ok ())

def scannedItems : List Json → List Scan
  | [] => []
  | item :: items => item.scanned :: scannedItems items

def scannedMembers : List (String × Json) → List (Lexeme String × Scan)
  | [] => []
  | (key, value) :: members => (⟨.ok key, .ok ()⟩, value.scanned) :: scannedMembers members

end

/-- Only space is written around the items. -/
structure Layout.Spaced (l : Layout) : Prop where
  gap_space : ∀ depth, ∀ c ∈ l.gap depth, isSpace c = true
  colon_space : ∃ spaces, l.colon = ':' :: spaces ∧ ∀ c ∈ spaces, isSpace c = true

theorem Layout.compact_spaced : Layout.compact.Spaced := ⟨by simp [compact], [], rfl, by simp⟩

theorem Layout.indented_spaced : Layout.indented.Spaced where
  gap_space := by
    intro depth c hc
    rcases List.mem_cons.1 hc with rfl | hc
    · decide
    · rw [List.eq_of_mem_replicate hc]
      decide
  colon_space := ⟨[' '], rfl, by simp; decide⟩

theorem skipSpace_append {spaces : List Char} (h : ∀ c ∈ spaces, isSpace c = true) (s : List Char) :
    skipSpace (spaces ++ s) = skipSpace s := List.dropWhile_append_of_pos h

theorem skipSpace_cons {c : Char} (h : isSpace c = false) (s : List Char) :
    skipSpace (c :: s) = c :: s := by
  simp [skipSpace, h]

theorem scanValue_space {spaces : List Char} (h : ∀ c ∈ spaces, isSpace c = true) (fuel : Nat)
    (s : List Char) : scanValue fuel (spaces ++ s) = scanValue fuel s := by
  cases fuel with
  | zero => rfl
  | succ fuel => simp only [scanValue, skipSpace_append h]

theorem isSpace_of_isDigit {c : Char} (h : c.isDigit = true) : isSpace c = false := by
  simp only [isSpace, Bool.or_eq_false_iff, beq_eq_false_iff_ne]
  refine ⟨⟨⟨?_, ?_⟩, ?_⟩, ?_⟩ <;> rintro rfl <;> exact absurd h (by decide)

theorem scanItems_space {spaces : List Char} (h : ∀ c ∈ spaces, isSpace c = true) (fuel : Nat)
    (s : List Char) : scanItems fuel (spaces ++ s) = scanItems fuel s := by
  cases fuel with
  | zero => rfl
  | succ fuel => simp only [scanItems, scanValue_space h]

theorem scanMembers_space {spaces : List Char} (h : ∀ c ∈ spaces, isSpace c = true) (fuel : Nat)
    (s : List Char) : scanMembers fuel (spaces ++ s) = scanMembers fuel s := by
  cases fuel with
  | zero => rfl
  | succ fuel => simp only [scanMembers, scanKey, skipSpace_append h]

theorem scanValue_digit {c : Char} (h : c.isDigit = true) (fuel : Nat) (r : List Char) :
    scanValue (fuel + 1) (c :: r) =
      (.number (scanNumber false (c :: r)).1, (scanNumber false (c :: r)).2) := by
  rw [scanValue, skipSpace_cons (isSpace_of_isDigit h)]
  split
  · next he => cases he
  · next he => cases he; exact absurd h (by decide)
  · next he => cases he; exact absurd h (by decide)
  · next he => cases he; exact absurd h (by decide)
  · next he => cases he; exact absurd h (by decide)
  · next he => cases he; exact absurd h (by decide)
  · next he => cases he; exact absurd h (by decide)
  · next he => cases he; exact absurd h (by decide)
  · next he => cases he; rw [if_pos h]

theorem ends_of_space {c : Char} (h : isSpace c = true) (r : List Char) : Ends (c :: r) := by
  intro x hx
  obtain rfl : c = x := by simpa using hx
  refine ⟨Bool.eq_false_iff.2 fun hd => ?_, ?_, ?_, ?_⟩
  · rw [isSpace_of_isDigit hd] at h
    exact absurd h (by decide)
  all_goals
    rintro rfl
    exact absurd h (by decide)

/-- Behind a value comes space or a mark. -/
theorem ends_append {spaces : List Char} (h : ∀ c ∈ spaces, isSpace c = true) {s : List Char}
    (hs : Ends s) : Ends (spaces ++ s) := by
  cases spaces with
  | nil => exact hs
  | cons c spaces => exact ends_of_space (h c (by simp)) _

theorem ends_mark {c : Char} (h : c = ',' ∨ c = ']' ∨ c = '}') (r : List Char) : Ends (c :: r) := by
  intro x hx
  obtain rfl : c = x := by simpa using hx
  rcases h with rfl | rfl | rfl <;> decide

/-- A value begins with neither space nor a closing bracket. -/
theorem write_eq_cons (l : Layout) (depth : Nat) (j : Json) :
    ∃ c r, j.write l depth = c :: r ∧ isSpace c = false ∧ c ≠ ']' := by
  have digit {c : Char} (h : c.isDigit = true) : isSpace c = false ∧ c ≠ ']' :=
    ⟨isSpace_of_isDigit h, by rintro rfl; exact absurd h (by decide)⟩
  cases j with
  | null => exact ⟨'n', _, rfl, by decide, by decide⟩
  | bool b =>
      cases b with
      | true => exact ⟨'t', _, rfl, by decide, by decide⟩
      | false => exact ⟨'f', _, rfl, by decide, by decide⟩
  | count n =>
      cases h : digitChars n with
      | nil => exact absurd h (digitChars_ne_nil n)
      | cons c r => exact ⟨c, r, by rw [write, h], digit (isDigit_digitChars n c (by simp [h]))⟩
  | number x =>
      by_cases hx : x.isFinite = true
      · obtain ⟨c, r, h, hc, -⟩ := scanNumber_numberChars hx
        rw [write, h]
        cases isNegative x with
        | true => exact ⟨'-', _, rfl, by decide, by decide⟩
        | false => exact ⟨c, r, rfl, digit hc⟩
      · exact ⟨'n', _, by rw [write, numberChars, if_neg hx]; rfl, by decide, by decide⟩
  | text s => exact ⟨'"', _, rfl, by decide, by decide⟩
  | array items =>
      cases items with
      | nil => exact ⟨'[', _, rfl, by decide, by decide⟩
      | cons item items =>
          exact ⟨'[', _, by simp only [write, List.cons_append]; rfl, by decide, by decide⟩
  | object members =>
      cases members with
      | nil => exact ⟨'{', _, rfl, by decide, by decide⟩
      | cons member members =>
          exact ⟨'{', _, by simp only [write, List.cons_append]; rfl, by decide, by decide⟩

@[elab_as_elim]
theorem induction {P : Json → Prop} (null : P .null) (bool : ∀ b, P (.bool b))
    (count : ∀ n, P (.count n)) (number : ∀ x, P (.number x)) (text : ∀ s, P (.text s))
    (array : ∀ items, (∀ j ∈ items, P j) → P (.array items))
    (object : ∀ members, (∀ m ∈ members, P m.2) → P (.object members)) (j : Json) : P j :=
  match j with
  | .null => null
  | .bool b => bool b
  | .count n => count n
  | .number x => number x
  | .text s => text s
  | .array items => array items fun j _ => induction null bool count number text array object j
  | .object members =>
      object members fun m _ => induction null bool count number text array object m.2
termination_by sizeOf j
decreasing_by
  · have := List.sizeOf_lt_of_mem ‹j ∈ items›
    simp only [Json.array.sizeOf_spec]
    omega
  · have h := List.sizeOf_lt_of_mem ‹m ∈ members›
    obtain ⟨key, value⟩ := m
    simp only [Prod.mk.sizeOf_spec, Json.object.sizeOf_spec] at h ⊢
    omega

/-- The value is read from its text, with fuel for each character of it. -/
def Scans (l : Layout) (j : Json) : Prop :=
  ∀ depth fuel rest, 2 * (j.write l depth).length ≤ fuel → Ends rest →
    scanValue fuel (j.write l depth ++ rest) = (j.scanned, some rest)

/-- The items of an array from the first on, without the space before it. -/
def itemsText (l : Layout) (depth : Nat) : List Json → List Char
  | [] => []
  | item :: items => item.write l depth ++ writeItems l depth items

def membersText (l : Layout) (depth : Nat) : List (String × Json) → List Char
  | [] => []
  | (key, value) :: members =>
      quote key ++ (l.colon ++ (value.write l depth ++ writeMembers l depth members))

section Items

variable {l : Layout} {spaces rest : List Char} {depth fuel : Nat}

theorem scanItems_write (hl : l.Spaced) (hs : ∀ c ∈ spaces, isSpace c = true) {items : List Json}
    (h : ∀ j ∈ items, Scans l j) (hne : items ≠ []) (hf : 2 * (itemsText l depth items).length < fuel) :
    scanItems fuel (itemsText l depth items ++ (spaces ++ ']' :: rest)) =
      (scannedItems items, .ok rest) := by
  induction items generalizing fuel with
  | nil => exact absurd rfl hne
  | cons item items ih =>
      obtain ⟨fuel, rfl⟩ : ∃ k, fuel = k + 1 := ⟨fuel - 1, by omega⟩
      have hitem := h item (by simp)
      simp only [itemsText, List.length_append, List.append_assoc] at hf ⊢
      cases items with
      | nil =>
          have hends := ends_append hs (ends_mark (.inr (.inl rfl)) rest)
          rw [writeItems, List.nil_append, scanItems, hitem depth fuel _ (by omega) hends]
          simp only [skipSpace_append hs, skipSpace_cons (by decide : isSpace ']' = false)]
          rfl
      | cons next items =>
          have hgap := hl.gap_space depth
          have hends (r : List Char) : Ends (',' :: r) := ends_mark (.inl rfl) r
          have hlen : 2 * (itemsText l depth (next :: items)).length < fuel := by
            simp only [itemsText, writeItems, List.length_append, List.length_cons] at hf ⊢
            omega
          have hrest := ih (fun j hj => h j (List.mem_cons_of_mem _ hj)) (by simp) hlen
          simp only [itemsText, List.append_assoc] at hrest
          simp only [writeItems, List.cons_append, List.append_assoc, scanItems]
          rw [hitem depth fuel _ (by omega) (hends _)]
          simp only [skipSpace_cons (by decide : isSpace ',' = false), scanItems_space hgap, hrest]
          rfl

theorem scanKey_quote (key : String) (r : List Char) :
    scanKey (quote key ++ r) = (⟨.ok key, .ok ()⟩, some r) := by
  have hscan := scanString_quoted key r
  simp only [quote, List.cons_append, List.append_assoc, List.nil_append, scanKey,
    skipSpace_cons (by decide : isSpace '"' = false), hscan]

theorem scanMembers_write (hl : l.Spaced) (hs : ∀ c ∈ spaces, isSpace c = true)
    {members : List (String × Json)} (h : ∀ m ∈ members, Scans l m.2) (hne : members ≠ [])
    (hf : 2 * (membersText l depth members).length < fuel) :
    scanMembers fuel (membersText l depth members ++ (spaces ++ '}' :: rest)) =
      (scannedMembers members, .ok rest) := by
  obtain ⟨blanks, hcolon, hblanks⟩ := hl.colon_space
  induction members generalizing fuel with
  | nil => exact absurd rfl hne
  | cons member members ih =>
      obtain ⟨key, value⟩ := member
      obtain ⟨fuel, rfl⟩ : ∃ k, fuel = k + 1 := ⟨fuel - 1, by omega⟩
      have hvalue : Scans l value := h (key, value) (by simp)
      simp only [membersText, List.length_append, List.append_assoc] at hf ⊢
      simp only [scanMembers, scanKey_quote, hcolon, List.cons_append,
        skipSpace_cons (by decide : isSpace ':' = false), scanValue_space hblanks]
      cases members with
      | nil =>
          have hends := ends_append hs (ends_mark (.inr (.inr rfl)) rest)
          rw [writeMembers, List.nil_append, hvalue depth fuel _ (by omega) hends]
          simp only [skipSpace_append hs, skipSpace_cons (by decide : isSpace '}' = false)]
          rfl
      | cons next members =>
          have hgap := hl.gap_space depth
          have hends (r : List Char) : Ends (',' :: r) := ends_mark (.inl rfl) r
          have hlen : 2 * (membersText l depth (next :: members)).length < fuel := by
            simp only [membersText, writeMembers, List.length_append, List.length_cons] at hf ⊢
            omega
          have hrest := ih (fun m hm => h m (List.mem_cons_of_mem _ hm)) (by simp) hlen
          simp only [membersText, hcolon, List.cons_append, List.append_assoc] at hrest
          simp only [writeMembers, hcolon, List.cons_append, List.append_assoc]
          rw [hvalue depth fuel _ (by omega) (hends _)]
          simp only [skipSpace_cons (by decide : isSpace ',' = false), scanMembers_space hgap, hrest]
          rfl

end Items

theorem exists_fuel {l : Layout} {depth fuel : Nat} {j : Json}
    (hf : 2 * (j.write l depth).length ≤ fuel) : ∃ k, fuel = k + 1 := by
  obtain ⟨c, r, hw, -⟩ := write_eq_cons l depth j
  rw [hw, List.length_cons] at hf
  exact ⟨fuel - 1, by omega⟩

theorem scans_count (l : Layout) (n : Nat) : Scans l (.count n) := by
  intro depth fuel rest hf hr
  obtain ⟨fuel, rfl⟩ := exists_fuel hf
  have hscan := scanNumber_whole false (spelled_count n) hr
  obtain ⟨c, r, hw, hc⟩ := (spelled_count n).exists_cons
  rw [valueOf_digitChars, hw] at hscan
  rw [write, hw, List.cons_append, scanValue_digit hc, ← List.cons_append, hscan]
  rfl

theorem scans_number (l : Layout) (x : Float) : Scans l (.number x) := by
  intro depth fuel rest hf hr
  obtain ⟨fuel, rfl⟩ := exists_fuel hf
  by_cases hx : x.isFinite = true
  · obtain ⟨c, r, hw, hc, hscan⟩ := scanNumber_numberChars hx
    specialize hscan rest hr
    rw [write, hw, scanned, if_pos hx]
    cases hn : isNegative x with
    | true =>
        rw [hn] at hscan
        change scanValue _ ('-' :: (c :: r ++ rest)) = _
        rw [scanValue, skipSpace_cons (by decide)]
        simp only [hscan]
    | false =>
        rw [hn] at hscan
        change scanValue _ (c :: (r ++ rest)) = _
        rw [scanValue_digit hc, ← List.cons_append, hscan]
  · rw [write, numberChars, scanned, if_neg hx, if_neg hx]
    rfl

theorem scanValue_bracket {spaces : List Char} (hs : ∀ c ∈ spaces, isSpace c = true) {c : Char}
    (hc : isSpace c = false) (hb : c ≠ ']') (fuel : Nat) (r : List Char) :
    scanValue (fuel + 1) ('[' :: (spaces ++ c :: r)) =
      (.array (scanItems fuel (c :: r)).1 ((scanItems fuel (c :: r)).2.map fun _ => ()),
        (scanItems fuel (c :: r)).2.toOption) := by
  simp only [scanValue, skipSpace_cons (by decide : isSpace '[' = false), skipSpace_append hs,
    skipSpace_cons hc]
  split
  · next h => cases h
  · next h => cases h; exact absurd rfl hb
  · rfl

theorem scanValue_brace {spaces : List Char} (hs : ∀ c ∈ spaces, isSpace c = true) (fuel : Nat)
    (r : List Char) :
    scanValue (fuel + 1) ('{' :: (spaces ++ '"' :: r)) =
      (.object (scanMembers fuel ('"' :: r)).1 ((scanMembers fuel ('"' :: r)).2.map fun _ => ()),
        (scanMembers fuel ('"' :: r)).2.toOption) := by
  simp only [scanValue, skipSpace_cons (by decide : isSpace '{' = false), skipSpace_append hs,
    skipSpace_cons (by decide : isSpace '"' = false)]
  rfl

theorem scans_array {l : Layout} (hl : l.Spaced) {items : List Json} (h : ∀ j ∈ items, Scans l j) :
    Scans l (.array items) := by
  intro depth fuel rest hf hr
  obtain ⟨fuel, rfl⟩ := exists_fuel hf
  cases items with
  | nil => rfl
  | cons item items =>
      have htext : (array (item :: items)).write l depth =
          '[' :: (l.gap (depth + 1) ++ (itemsText l (depth + 1) (item :: items) ++
            (l.gap depth ++ [']']))) := by
        simp only [write, itemsText, List.cons_append, List.append_assoc]
      rw [htext] at hf ⊢
      simp only [List.length_cons, List.length_append] at hf
      have hitems : scanItems fuel (itemsText l (depth + 1) (item :: items) ++
          (l.gap depth ++ ']' :: rest)) = (scannedItems (item :: items), .ok rest) :=
        scanItems_write hl (hl.gap_space depth) h (by simp) (by omega)
      obtain ⟨c, r, hw, hc, hb⟩ := write_eq_cons l (depth + 1) item
      simp only [itemsText, hw, List.cons_append, List.append_assoc, List.nil_append] at hitems ⊢
      rw [scanValue_bracket (hl.gap_space _) hc hb, hitems]
      rfl

theorem scans_object {l : Layout} (hl : l.Spaced) {members : List (String × Json)}
    (h : ∀ m ∈ members, Scans l m.2) : Scans l (.object members) := by
  intro depth fuel rest hf hr
  obtain ⟨fuel, rfl⟩ := exists_fuel hf
  cases members with
  | nil => rfl
  | cons member members =>
      obtain ⟨key, value⟩ := member
      have htext : (object ((key, value) :: members)).write l depth =
          '{' :: (l.gap (depth + 1) ++ (membersText l (depth + 1) ((key, value) :: members) ++
            (l.gap depth ++ ['}']))) := by
        simp only [write, membersText, List.cons_append, List.append_assoc]
      rw [htext] at hf ⊢
      simp only [List.length_cons, List.length_append] at hf
      have hmembers : scanMembers fuel (membersText l (depth + 1) ((key, value) :: members) ++
          (l.gap depth ++ '}' :: rest)) = (scannedMembers ((key, value) :: members), .ok rest) :=
        scanMembers_write hl (hl.gap_space depth) h (by simp) (by omega)
      simp only [membersText, quote, List.cons_append, List.append_assoc, List.nil_append] at hmembers ⊢
      rw [scanValue_brace (hl.gap_space _), hmembers]
      rfl

/-- Every value is read from its text, in each layout. -/
theorem scans {l : Layout} (hl : l.Spaced) (j : Json) : Scans l j := by
  induction j using Json.induction with
  | null =>
      intro depth fuel rest hf hr
      obtain ⟨fuel, rfl⟩ := exists_fuel hf
      rfl
  | bool b =>
      intro depth fuel rest hf hr
      obtain ⟨fuel, rfl⟩ := exists_fuel hf
      cases b <;> rfl
  | count n => exact scans_count l n
  | number x => exact scans_number l x
  | text s =>
      intro depth fuel rest hf hr
      obtain ⟨fuel, rfl⟩ := exists_fuel hf
      have hscan := scanString_quoted s rest
      simp only [write, quote, List.cons_append, List.append_assoc, List.nil_append, scanValue,
        skipSpace_cons (by decide : isSpace '"' = false), hscan]
      rfl
  | array items ih => exact scans_array hl ih
  | object members ih => exact scans_object hl ih

theorem decode_ofList_write {α : Type} {l : Layout} (hl : l.Spaced) (read : Scan → Except Fault α)
    (j : Json) : decode read (String.ofList (j.write l 0)) = read j.scanned := by
  have h := scans hl j 0 (2 * (j.write l 0).length + 2) [] (by omega) nofun
  rw [List.append_nil] at h
  rw [decode, String.toList_ofList, scan, h]
  dsimp only
  cases read j.scanned <;> rfl

/-- Reading a written value is reading what is found in its text. -/
theorem decode_compact {α : Type} (read : Scan → Except Fault α) (j : Json) :
    decode read j.compact = read j.scanned := decode_ofList_write Layout.compact_spaced read j

theorem decode_pretty {α : Type} (read : Scan → Except Fault α) (j : Json) :
    decode read j.pretty = read j.scanned := decode_ofList_write Layout.indented_spaced read j

end SentenceScript.Json
