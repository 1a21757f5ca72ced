namespace SentenceScript.Text

/-- The Unicode property White_Space. -/
def isBlank (c : Char) : Bool :=
  let n := c.toNat
  (9 ≤ n && n ≤ 13) || n == 0x20 || n == 0x85 || n == 0xA0 || n == 0x1680 ||
    (0x2000 ≤ n && n ≤ 0x200A) || n == 0x2028 || n == 0x2029 || n == 0x202F || n == 0x205F ||
    n == 0x3000

def dropBlanks (s : List Char) : List Char := s.dropWhile isBlank

def dropBlanksEnd (s : List Char) : List Char := (dropBlanks s.reverse).reverse

def strip (s : List Char) : List Char := dropBlanksEnd (dropBlanks s)

def trim (s : String) : String := String.ofList (strip s.toList)

theorem dropBlanks_length_le (s : List Char) : (dropBlanks s).length ≤ s.length := by
  induction s with
  | nil => simp [dropBlanks]
  | cons c r ih =>
      simp only [dropBlanks, List.dropWhile_cons] at *
      split
      · simp only [List.length_cons]; omega
      · exact Nat.le_refl _

theorem strip_length_le (s : List Char) : (strip s).length ≤ s.length := by
  have h := dropBlanks_length_le (dropBlanks s).reverse
  have h' := dropBlanks_length_le s
  simp only [strip, dropBlanksEnd, List.length_reverse] at *
  omega

/-- The pieces of a text between its line feeds; there is always at least one. -/
def rows : List Char → List (List Char)
  | [] => [[]]
  | c :: r =>
      if c = '\n' then [] :: rows r
      else
        match rows r with
        | [] => [[c]]
        | row :: rest => (c :: row) :: rest

/-- The lines of a script: each row without the blanks at its ends, blank rows left out.
A carriage return before a line feed is such a blank. -/
def scriptLines (source : String) : List String :=
  ((rows source.toList).map strip).filterMap fun row =>
    if row.isEmpty then none else some (String.ofList row)

theorem rows_ne_nil (s : List Char) : rows s ≠ [] := by
  cases s with
  | nil => simp [rows]
  | cons c r =>
      simp only [rows]
      split
      · simp
      · split <;> simp

theorem rows_append (s t : List Char) : rows (s ++ '\n' :: t) = rows s ++ rows t := by
  induction s with
  | nil => simp [rows]
  | cons c r ih =>
      by_cases hc : c = '\n'
      · simp [rows, hc, ih]
      · obtain ⟨row, rest, h⟩ := List.exists_cons_of_ne_nil (rows_ne_nil r)
        simp [rows, hc, ih, h]

end SentenceScript.Text
