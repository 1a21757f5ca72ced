namespace SentenceScript.Text

/-- Simple case folding onto the ASCII letters. Besides the capitals only two characters fold
onto one of them: U+017F, the long s, and U+212A, the Kelvin sign. -/
def fold (c : Char) : Char :=
  if c = '\u017f' then 's' else if c = '\u212a' then 'k' else c.toLower

def isNameStart (c : Char) : Bool := ('a' ≤ fold c && fold c ≤ 'z') || c == '_'

def isNamePart (c : Char) : Bool := isNameStart c || c.isDigit

def hexValue? (c : Char) : Option Nat :=
  if c.isDigit then some (c.toNat - '0'.toNat)
  else if 'a' ≤ c ∧ c ≤ 'f' then some (c.toNat - 'a'.toNat + 10)
  else if 'A' ≤ c ∧ c ≤ 'F' then some (c.toNat - 'A'.toNat + 10)
  else none

/-- What follows the word at the head of the text, letters compared up to folding. -/
def eat? : List Char → List Char → Option (List Char)
  | [], s => some s
  | _ :: _, [] => none
  | w :: ws, c :: s => if fold c = w then eat? ws s else none

theorem eat?_length {w s r : List Char} (h : eat? w s = some r) :
    s.length = w.length + r.length := by
  induction w generalizing s with
  | nil => simp only [eat?, Option.some.injEq] at h; simp [h]
  | cons a ws ih =>
      cases s with
      | nil => simp [eat?] at h
      | cons c t =>
          simp only [eat?] at h
          split at h
          · have := ih h; simp only [List.length_cons]; omega
          · simp at h

def occursIn (needle : List Char) : List Char → Bool
  | [] => needle.isEmpty
  | c :: r => needle.isPrefixOf (c :: r) || occursIn needle r

end SentenceScript.Text
