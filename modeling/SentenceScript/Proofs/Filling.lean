import SentenceScript.Proofs.Phrasing

namespace SentenceScript

open Text Decimal

/-- A name of a variable: a letter or an underscore, then letters, digits and underscores. -/
structure Identifier where
  first : Char
  rest : List Char
  first_valid : first.isAlpha = true ∨ first = '_'
  rest_valid : ∀ c ∈ rest, c.isAlphanum = true ∨ c = '_'

/-- A number as written: digits, with a point and more digits or without, and a minus or none. -/
structure Literal where
  negative : Bool
  whole : List Char
  fraction : List Char
  whole_ne_nil : whole ≠ []
  digits : ∀ c ∈ whole ++ fraction, c.isDigit = true

/-- A row of digits for a word of 64 bits. -/
structure Count where
  digits : List Char
  ne_nil : digits ≠ []
  valid : ∀ c ∈ digits, c.isDigit = true
  below : valueOf digits < UInt64.size

structure Quotation where
  chars : List Char
  no_quote : '"' ∉ chars

def Comparison.words : Comparison → List String
  | above => ["above", "greater than"]
  | below => ["below", "less than"]
  | equalTo => ["equal to"]

/-- A comparison in words, in any case of its letters. -/
structure Phrase where
  chars : List Char
  comparison : Comparison
  named : String.ofList (chars.map Char.toLower) ∈ comparison.words

/-- What is noted: one row, and blanks before it. Blanks behind it are outside the sentence. -/
structure Remark where
  chars : List Char
  one_row : '\n' ∉ strip chars
  last : ∀ c ∈ chars.getLast?, isBlank c = false

namespace Identifier

def chars (n : Identifier) : List Char := n.first :: n.rest

def text (n : Identifier) : String := String.ofList n.chars

theorem valid (n : Identifier) : ∀ c ∈ n.chars, c.isAlphanum = true ∨ c = '_' := by
  intro c hc
  rcases List.mem_cons.1 hc with rfl | hc
  · exact n.first_valid.imp_left fun h => by simp [Char.isAlphanum, h]
  · exact n.rest_valid c hc

end Identifier

namespace Literal

def chars (x : Literal) : List Char := signChars x.negative ++ (x.whole ++ point x.fraction)

/-- The number nearest to the decimal that is written. -/
def value (x : Literal) : Float :=
  toFloat ⟨x.negative, valueOf (x.whole ++ x.fraction), -x.fraction.length⟩

end Literal

def Count.value (n : Count) : UInt64 := UInt64.ofNatLT (valueOf n.digits) n.below

def Quotation.text (q : Quotation) : String := String.ofList q.chars

def Phrase.text (p : Phrase) : String := String.ofList p.chars

def Remark.text (r : Remark) : String := String.ofList (strip r.chars)

/-- What stands in a slot. -/
inductive Filling where
  | name (n : Identifier)
  | number (x : Literal)
  | count (n : Count)
  | quoted (q : Quotation)
  | phrase (p : Phrase)
  | remark (r : Remark)

namespace Filling

def slot : Filling → Slot
  | name _ => .name
  | number _ => .number
  | count _ => .count
  | quoted _ => .quoted
  | phrase _ => .phrase
  | remark _ => .remark

def written : Filling → List Char
  | name n => n.chars
  | number x => x.chars
  | count n => n.digits
  | quoted q => '"' :: (q.chars ++ ['"'])
  | phrase p => p.chars
  | remark r => r.chars

def captured : Filling → List Char
  | name n => n.chars
  | number x => x.chars
  | count n => n.digits
  | quoted q => q.chars
  | phrase p => p.chars
  | remark r => strip r.chars

end Filling

/-- A text in a form: of its words some choice in any case of the letters, and its slots filled. -/
inductive Form.Spells : Form → List Filling → List Char → Prop
  | nil : Spells [] [] []
  | words {choices : List String} {form : Form} {fillings : List Filling} {rest : List Char}
      (w : String) (letters : List Char) (hw : w ∈ choices)
      (hl : letters.map Char.toLower = w.toList) (h : Spells form fillings rest) :
      Spells (.words choices :: form) fillings (letters ++ rest)
  | slot {form : Form} {fillings : List Filling} {rest : List Char} (f : Filling)
      (h : Spells form fillings rest) :
      Spells (.slot f.slot :: form) (f :: fillings) (f.written ++ rest)

def Shape.Spells (shape : Shape) (fillings : List Filling) (s : List Char) : Prop :=
  ∃ form ∈ shape.forms, form.Spells fillings s

namespace Text

theorem isAlphanum_lt {c : Char} (h : c.isAlphanum = true ∨ c = '_') : c.toNat < 128 := by
  rcases h with h | rfl
  · have hc : (65 ≤ c.toNat ∧ c.toNat ≤ 90 ∨ 97 ≤ c.toNat ∧ c.toNat ≤ 122) ∨
        48 ≤ c.toNat ∧ c.toNat ≤ 57 := by
      simpa [Char.isAlphanum, Char.isAlpha, Char.isUpper, Char.isLower, Char.isDigit,
        UInt32.le_iff_toNat_le] using h
    omega
  · decide

theorem isNamePart_of_isAlphanum {c : Char} (h : c.isAlphanum = true ∨ c = '_') :
    isNamePart c = true :=
  ascii_forall (P := fun c => c.isAlphanum = true ∨ c = '_' → isNamePart c = true) (by decide)
    (isAlphanum_lt h) h

theorem isNameStart_of_isAlpha {c : Char} (h : c.isAlpha = true ∨ c = '_') :
    isNameStart c = true := by
  have hlt : c.toNat < 128 := isAlphanum_lt (h.imp_left fun h => by simp [Char.isAlphanum, h])
  exact ascii_forall (P := fun c => c.isAlpha = true ∨ c = '_' → isNameStart c = true) (by decide)
    hlt h

theorem isBlank_of_isNamePart {c : Char} (h : c.isAlphanum = true ∨ c = '_') : isBlank c = false :=
  ascii_forall (P := fun c => c.isAlphanum = true ∨ c = '_' → isBlank c = false) (by decide)
    (isAlphanum_lt h) h

theorem toLower_of_not_ascii {c : Char} (h : 128 ≤ c.toNat) : c.toLower = c := by
  have hz : ¬ (c.val ≥ 'A'.val ∧ c.val ≤ 'Z'.val) := by
    rw [UInt32.le_iff_toNat_le (b := 'Z'.val)]
    intro hc
    have : c.toNat ≤ 90 := hc.2
    omega
  rw [Char.toLower, dif_neg hz]

theorem isBlank_toLower (c : Char) : isBlank c.toLower = isBlank c := by
  by_cases h : c.toNat < 128
  · exact ascii_forall (P := fun c => isBlank c.toLower = isBlank c) (by decide) h
  · rw [toLower_of_not_ascii (Nat.le_of_not_lt h)]

/-- Only letters have another case. -/
theorem toLower_eq_iff {c d : Char} (hd : d.isAlpha = false) : c.toLower = d ↔ c = d := by
  by_cases hc : c.toNat < 128
  · constructor
    · rintro rfl
      exact ascii_forall (P := fun c => c.toLower.isAlpha = false → c = c.toLower) (by decide) hc hd
    · rintro rfl
      exact ascii_forall (P := fun c => c.isAlpha = false → c.toLower = c) (by decide) hc hd
  · rw [toLower_of_not_ascii (Nat.le_of_not_lt hc)]

theorem dropBlanksEnd_eq_self {s : List Char} (h : ∀ c ∈ s.getLast?, isBlank c = false) :
    dropBlanksEnd s = s := by
  have hr : ∀ c ∈ s.reverse.head?, isBlank c = false := by rwa [List.head?_reverse]
  rw [dropBlanksEnd, dropBlanks_eq_self hr, List.reverse_reverse]

theorem strip_eq_dropBlanks {s : List Char} (h : ∀ c ∈ s.getLast?, isBlank c = false) :
    strip s = dropBlanks s := by
  refine dropBlanksEnd_eq_self fun c hc => h c ?_
  have hsuffix : dropBlanks s <:+ s := List.dropWhile_suffix _
  obtain ⟨t, ht⟩ := hsuffix
  rw [← ht, List.getLast?_append, Option.mem_def.1 hc]
  rfl

theorem last_append_not_blank {front rest : List Char}
    (hr : ∀ c ∈ rest.getLast?, isBlank c = false)
    (hf : rest = [] → ∀ c ∈ front.getLast?, isBlank c = false) :
    ∀ c ∈ (front ++ rest).getLast?, isBlank c = false := by
  by_cases h : rest = []
  · rw [h, List.append_nil]
    exact hf h
  · rwa [List.getLast?_append_of_ne_nil _ h]

end Text

namespace Comparison

/-- The table by which comparisons are read has these words and no others. -/
theorem mem_phrases_iff {w : String} {c : Comparison} : (w, c) ∈ phrases ↔ w ∈ c.words := by
  cases c <;> simp [phrases, words]

variable {w : String} {c : Comparison} (h : w ∈ c.words)

include h

theorem lookup_phrases : phrases.lookup w = some c := by
  have hall : ∀ a ∈ phrases, phrases.lookup a.1 = some a.2 := by decide
  exact hall (w, c) (mem_phrases_iff.2 h)

theorem forall_words {P : String → Prop} (hp : ∀ a ∈ phrases, P a.1) : P w :=
  hp (w, c) (mem_phrases_iff.2 h)

end Comparison

/-- The two characters that fold onto letters without being such are in no phrase. -/
theorem Phrase.map_fold (p : Phrase) :
    p.chars.map fold = (String.ofList (p.chars.map Char.toLower)).toList := by
  obtain ⟨hs, hk⟩ := Comparison.forall_words p.named
    (P := fun w => '\u017f' ∉ w.toList ∧ '\u212a' ∉ w.toList) (by decide)
  exact map_fold_of_map_toLower (by rw [String.toList_ofList]) hs hk

theorem Identifier.isName (n : Identifier) : Slot.IsName n.chars :=
  ⟨n.first, n.rest, rfl, isNameStart_of_isAlpha n.first_valid,
    fun c hc => isNamePart_of_isAlphanum (n.rest_valid c hc)⟩

theorem Literal.isNumeral (x : Literal) : IsNumeral x.chars x.value := by
  refine Digits.isNumeral ⟨fun c hc => ?_, x.whole_ne_nil, fun c hc => ?_⟩ x.negative
  · exact x.digits c (List.mem_append_left _ hc)
  · exact x.digits c (List.mem_append_right _ hc)

namespace Filling

theorem written_ne_nil {f : Filling} (h : f.slot ≠ .remark) : f.written ≠ [] := by
  cases f with
  | name n => exact List.cons_ne_nil _ _
  | number x => exact x.isNumeral.ne_nil
  | count n => exact n.ne_nil
  | quoted q => exact List.cons_ne_nil _ _
  | phrase p =>
      have hp := Comparison.forall_words p.named (P := (·.toList ≠ [])) (by decide)
      rw [String.toList_ofList] at hp
      exact fun he => hp (congrArg _ he)
  | remark r => exact absurd rfl h

theorem last_not_blank (f : Filling) : ∀ c ∈ f.written.getLast?, isBlank c = false := by
  intro c hc
  cases f with
  | name n => exact isBlank_of_isNamePart (n.valid c (List.mem_of_getLast? hc))
  | number x => exact x.isNumeral.last_not_blank c hc
  | count n => exact isBlank_of_isDigit (n.valid c (List.mem_of_getLast? hc))
  | quoted q =>
      have hl : (('"' :: q.chars) ++ ['"']).getLast? = some '"' := List.getLast?_concat
      cases hl.symm.trans hc
      rfl
  | phrase p =>
      have hp := Comparison.forall_words p.named
        (P := (·.toList.getLast?.any isBlank = false)) (by decide)
      have hc : p.chars.getLast? = some c := hc
      rwa [String.toList_ofList, List.getLast?_map, hc, Option.map_some, Option.any_some,
        isBlank_toLower] at hp
  | remark r => exact r.last c hc

end Filling

namespace Form

variable {form : Form} {fillings : List Filling} {s : List Char}

/-- Whether no text in the form starts with a blank. -/
def opens : Form → Bool
  | .words choices :: _ => choices.all (·.toList.head?.any (!isBlank ·))
  | _ => false

/-- Whether the empty text may be in the form. -/
def mayBeEmpty : Form → Bool
  | [] => true
  | .words choices :: ps => choices.contains "" && mayBeEmpty ps
  | .slot kind :: ps => kind == .remark && mayBeEmpty ps

/-- Whether no text in the form ends with a blank. -/
def closes : Form → Bool
  | [] => true
  | .words choices :: ps =>
      (choices.all (·.toList.getLast?.all (!isBlank ·)) || !mayBeEmpty ps) && closes ps
  | .slot _ :: ps => closes ps

theorem Spells.head_not_blank (h : form.Spells fillings s) (ho : form.opens = true) :
    ∀ c ∈ s.head?, isBlank c = false := by
  cases h with
  | nil | slot => cases ho
  | words w letters hw hl h =>
      have hhead := List.all_eq_true.1 ho w hw
      rw [← hl] at hhead
      cases letters with
      | nil => cases hhead
      | cons d letters =>
          intro c hc
          cases hc
          simpa [isBlank_toLower] using hhead

theorem Spells.mayBeEmpty (h : form.Spells fillings s) (hs : s = []) : form.mayBeEmpty = true := by
  induction h with
  | nil => rfl
  | words w letters hw hl h ih =>
      rw [List.append_eq_nil_iff] at hs
      have hempty : w = "" := by
        rw [← String.toList_inj, ← hl, hs.1]
        rfl
      rw [Form.mayBeEmpty, ih hs.2, ← hempty, List.contains_iff_mem.2 hw]
      rfl
  | slot f h ih =>
      rw [List.append_eq_nil_iff] at hs
      have hremark : f.slot = .remark := by
        by_contra hne
        exact f.written_ne_nil hne hs.1
      rw [Form.mayBeEmpty, ih hs.2, hremark]
      rfl

theorem Spells.last_not_blank (h : form.Spells fillings s) (hc : form.closes = true) :
    ∀ c ∈ s.getLast?, isBlank c = false := by
  induction h with
  | nil => nofun
  | words w letters hw hl h ih =>
      rw [closes, Bool.and_eq_true] at hc
      refine last_append_not_blank (ih hc.2) fun hs c hm => ?_
      rw [h.mayBeEmpty hs, Bool.not_true, Bool.or_false] at hc
      have hlast := List.all_eq_true.1 hc.1 w hw
      rw [← hl, List.getLast?_map, Option.mem_def.1 hm] at hlast
      simpa [isBlank_toLower] using hlast
  | slot f h ih => exact last_append_not_blank (ih hc) fun _ => f.last_not_blank

theorem strip_of_spells (h : form.Spells fillings s) (ho : form.opens = true)
    (hc : form.closes = true) : strip s = s :=
  strip_eq_self (h.head_not_blank ho) (h.last_not_blank hc)

end Form

end SentenceScript
