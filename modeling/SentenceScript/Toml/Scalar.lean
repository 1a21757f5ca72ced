import SentenceScript.Decimal.Basic
import SentenceScript.Instant
import SentenceScript.Toml.Lexical

namespace SentenceScript.Toml

open Text

/-- Digits in which single underscores may stand between two of them. -/
def digitRun (isDigit : Char → Bool) : List Char → Option (List Char × List Char)
  | c :: '_' :: d :: r =>
      if isDigit c && isDigit d then
        (digitRun isDigit (d :: r)).map fun (ds, rest) => (c :: ds, rest)
      else none
  | c :: d :: r =>
      if isDigit c then
        if isDigit d then (digitRun isDigit (d :: r)).map fun (ds, rest) => (c :: ds, rest)
        else if d = '_' then none
        else some ([c], d :: r)
      else none
  | [c] => if isDigit c then some ([c], []) else none
  | [] => none

def decimalDigits : Reader (List Char)
  | '0' :: r => some (['0'], r)
  | s => digitRun Char.isDigit s

def isHex (c : Char) : Bool := (hexValue? c).isSome

def isOctal (c : Char) : Bool := '0' ≤ c && c ≤ '7'

def isBinary (c : Char) : Bool := c == '0' || c == '1'

def valueIn (base : Nat) (ds : List Char) : Nat :=
  ds.foldl (fun n d => base * n + (hexValue? d).getD 0) 0

def bounded (i : Int) : Option Int :=
  if -9223372036854775808 ≤ i ∧ i ≤ 9223372036854775807 then some i else none

def inBase (base : Nat) (isDigit : Char → Bool) (s : List Char) : Option (Int × List Char) := do
  let (ds, rest) ← digitRun isDigit s
  return (← bounded (valueIn base ds), rest)

def integer : Reader Int
  | '0' :: 'x' :: r => inBase 16 isHex r
  | '0' :: 'o' :: r => inBase 8 isOctal r
  | '0' :: 'b' :: r => inBase 2 isBinary r
  | s => do
      let (negative, r) := Decimal.takeSign s
      let (ds, rest) ← decimalDigits r
      let n : Int := Decimal.valueOf ds
      return (← bounded (if negative then -n else n), rest)

def power : Reader (Option Int)
  | c :: r =>
      if c = 'e' ∨ c = 'E' then do
        let (negative, r) := Decimal.takeSign r
        let (ds, rest) ← digitRun Char.isDigit r
        let n : Int := Decimal.valueOf ds
        return (some (if negative then -n else n), rest)
      else some (none, c :: r)
  | [] => some (none, [])

def fraction : Reader (List Char)
  | '.' :: r => digitRun Char.isDigit r
  | s => some ([], s)

def isWord (word : String) (s : List Char) : Option (List Char) :=
  if word.toList.isPrefixOf s then some (s.drop word.length) else none

/-- A number with a fraction, an exponent or both; a positive one is not too large to be finite. -/
def real (s : List Char) : Option (Float × List Char) :=
  let (negative, r) := Decimal.takeSign s
  let signed (x : Float) := if negative then -x else x
  match isWord "inf" r, isWord "nan" r with
  | some rest, _ => some (signed (1 / 0), rest)
  | none, some rest => some (signed (0 / 0), rest)
  | none, none => do
      let (whole, r) ← decimalDigits r
      let (behind, r) ← fraction r
      let (exponent, rest) ← power r
      guard (!behind.isEmpty || exponent.isSome)
      let d : Decimal :=
        ⟨negative, Decimal.valueOf (whole ++ behind), exponent.getD 0 - behind.length⟩
      guard (negative || d.toFloat.isFinite)
      return (d.toFloat, rest)

def field (width lo hi : Nat) (s : List Char) : Option (Nat × List Char) :=
  let ds := s.take width
  let n := Decimal.valueOf ds
  if ds.length = width ∧ ds.all Char.isDigit ∧ lo ≤ n ∧ n ≤ hi then some (n, s.drop width) else none

def mark (c : Char) : List Char → Option (List Char)
  | d :: r => if d = c then some r else none
  | [] => none

def date (s : List Char) : Option (List Char) := do
  let (year, r) ← field 4 0 9999 s
  let (month, r) ← field 2 1 12 (← mark '-' r)
  let (_, r) ← field 2 1 (Calendar.monthLength year month) (← mark '-' r)
  return r

def time (s : List Char) : Option (List Char) := do
  let (_, r) ← field 2 0 23 s
  let (_, r) ← field 2 0 59 (← mark ':' r)
  let (_, r) ← field 2 0 60 (← mark ':' r)
  match r with
  | '.' :: r => if (r.takeWhile Char.isDigit).isEmpty then none else return r.dropWhile Char.isDigit
  | r => return r

def offset : List Char → Option (List Char)
  | 'Z' :: r | 'z' :: r => some r
  | '+' :: r | '-' :: r => do
      let (_, r) ← field 2 0 23 r
      let (_, r) ← field 2 0 59 (← mark ':' r)
      return r
  | r => some r

def moment (s : List Char) : Option (List Char) :=
  match date s with
  | none => time s
  | some r =>
      match r with
      | c :: t =>
          if c = 'T' ∨ c = 't' ∨ c = ' ' then
            match time t with
            | some rest => offset rest
            | none => some r
          else some r
      | [] => some []

end SentenceScript.Toml
