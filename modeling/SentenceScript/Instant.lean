import SentenceScript.Text.Rows
import SentenceScript.Text.Search
import SentenceScript.Decimal.Shortest

namespace SentenceScript

namespace Calendar

structure Date where
  year : Int
  month : Nat
  day : Nat
  deriving DecidableEq, Repr

def isLeap (year : Int) : Bool :=
  year % 4 == 0 && (year % 100 != 0 || year % 400 == 0)

def monthLength (year : Int) (month : Nat) : Nat :=
  if month = 2 then (if isLeap year then 29 else 28)
  else if month = 4 ∨ month = 6 ∨ month = 9 ∨ month = 11 then 30
  else 31

def Date.valid (d : Date) : Bool :=
  1 ≤ d.month && d.month ≤ 12 && 1 ≤ d.day && d.day ≤ monthLength d.year d.month

/-- Days from 1970-01-01. Years are counted from March, so that the leap day comes last. -/
def Date.toDays (d : Date) : Int :=
  let year := if d.month ≤ 2 then d.year - 1 else d.year
  let month : Int := if d.month ≤ 2 then d.month + 9 else (d.month : Int) - 3
  let era := year.fdiv 400
  let ofEra := year - era * 400
  let ofYear := (153 * month + 2) / 5 + d.day - 1
  era * 146097 + ofEra * 365 + ofEra / 4 - ofEra / 100 + ofYear - 719468

def Date.ofDays (days : Int) : Date :=
  let shifted := days + 719468
  let era := shifted.fdiv 146097
  let dayOfEra := shifted - era * 146097
  let ofEra := (dayOfEra - dayOfEra / 1460 + dayOfEra / 36524 - dayOfEra / 146096) / 365
  let ofYear := dayOfEra - (365 * ofEra + ofEra / 4 - ofEra / 100)
  let month := (5 * ofYear + 2) / 153
  let day := ofYear - (153 * month + 2) / 5 + 1
  let civil := if month < 10 then month + 3 else month - 9
  ⟨ofEra + era * 400 + (if civil ≤ 2 then 1 else 0), civil.toNat, day.toNat⟩

end Calendar

open Text Calendar

namespace Instant

def daySeconds : Int := 86400

def firstYear : Int := -262143

def lastYear : Int := 262142

def earliest : Int := Date.toDays ⟨firstYear, 1, 1⟩ * daySeconds

def latest : Int := Date.toDays ⟨lastYear, 12, 31⟩ * daySeconds + 86399

/-- The seconds lie in years that have dates. Only the last second of a minute has billionths beyond
the first `10 ^ 9`, which make up the leap second behind it. -/
def InRange (seconds : Int) (nanos : Nat) : Prop :=
  (earliest ≤ seconds ∧ seconds ≤ latest) ∧
    (nanos < 1000000000 ∨ (nanos < 2000000000 ∧ seconds % 60 = 59))

instance (seconds : Int) (nanos : Nat) : Decidable (InRange seconds nanos) :=
  inferInstanceAs (Decidable (_ ∧ _))

end Instant

/-- Seconds since 1970-01-01 in UTC, and billionths of a second. -/
structure Instant where
  seconds : Int
  nanos : Nat
  inRange : Instant.InRange seconds nanos
  deriving DecidableEq, Repr

namespace Instant

def of? (seconds : Int) (nanos : Nat) : Option Instant :=
  if h : InRange seconds nanos then some ⟨seconds, nanos, h⟩ else none

def epoch : Instant := ⟨0, 0, by decide⟩

def padded (width n : Nat) : List Char :=
  let ds := Decimal.digitChars n
  Decimal.zeros (width - ds.length) ++ ds

/-- Years of four digits stand alone, all others carry a sign. -/
def yearText (year : Int) : List Char :=
  if 0 ≤ year ∧ year ≤ 9999 then padded 4 year.toNat
  else (if year < 0 then '-' else '+') :: padded 4 year.natAbs

/-- No fraction, or thousandths, millionths or billionths, the fewest that are exact. -/
def fractionText (nanos : Nat) : List Char :=
  if nanos = 0 then []
  else if nanos % 1000000 = 0 then '.' :: padded 3 (nanos / 1000000)
  else if nanos % 1000 = 0 then '.' :: padded 6 (nanos / 1000)
  else '.' :: padded 9 nanos

def toChars (t : Instant) : List Char :=
  let days := t.seconds.fdiv daySeconds
  let time := (t.seconds - days * daySeconds).toNat
  let date := Date.ofDays days
  let leap := if t.nanos < 1000000000 then 0 else 1
  yearText date.year ++ '-' :: padded 2 date.month ++ '-' :: padded 2 date.day ++
    'T' :: padded 2 (time / 3600) ++ ':' :: padded 2 (time / 60 % 60) ++
    ':' :: padded 2 (time % 60 + leap) ++ fractionText (t.nanos - leap * 1000000000) ++ ['Z']

def takeField (width : Nat) (s : List Char) : Option (Nat × List Char) :=
  let body := dropBlanks s
  let ds := (body.take width).takeWhile Char.isDigit
  if ds.isEmpty then none else some (Decimal.valueOf ds, body.drop ds.length)

/-- A year has at most four digits, or any number of them after a sign. -/
def takeYear (s : List Char) : Option (Int × List Char) :=
  match dropBlanks s with
  | '-' :: r => signed (-1) r
  | '+' :: r => signed 1 r
  | r => (takeField 4 r).map fun (y, rest) => ((y : Int), rest)
where
  signed (sign : Int) (r : List Char) : Option (Int × List Char) :=
    let ds := r.takeWhile Char.isDigit
    if ds.isEmpty then none else some (sign * Decimal.valueOf ds, r.dropWhile Char.isDigit)

def takeMark (mark : Char) (s : List Char) : Option (List Char) :=
  match dropBlanks s with
  | c :: r => if c = mark then some r else none
  | [] => none

def takeFraction : List Char → Option (Nat × List Char)
  | '.' :: r =>
      let ds := (r.takeWhile Char.isDigit).take 9
      if ds.isEmpty then none
      else some (Decimal.valueOf ds * Decimal.pow10 (9 - ds.length), r.dropWhile Char.isDigit)
  | r => some (0, r)

def takeTwoDigits : List Char → Option (Nat × List Char)
  | a :: b :: r => if a.isDigit && b.isDigit then some (Decimal.valueOf [a, b], r) else none
  | _ => none

def takeOffset : List Char → Option (Int × List Char)
  | 'Z' :: r | 'z' :: r => some (0, r)
  | '+' :: r => signed 1 r
  | '-' :: r | '−' :: r => signed (-1) r
  | a :: b :: c :: r =>
      if [a.toUpper, b.toUpper, c.toUpper] = ['U', 'T', 'C'] then some (0, r) else none
  | _ => none
where
  signed (sign : Int) (r : List Char) : Option (Int × List Char) := do
    let (hours, r) ← takeTwoDigits r
    let (minutes, r) ← takeTwoDigits (r.dropWhile fun c => c == ':' || isBlank c)
    if hours < 24 ∧ minutes < 60 then
      return (sign * (hours * 3600 + minutes * 60 : Nat), r)
    else none

/-- Reads RFC 3339, blanks allowed before each field and mark, `T` possibly a blank, and the offset
possibly the word UTC. -/
def ofChars? (s : List Char) : Option Instant := do
  let (year, s) ← takeYear s
  let (month, s) ← takeField 2 (← takeMark '-' s)
  let (day, s) ← takeField 2 (← takeMark '-' s)
  let s ← match s with
    | 'T' :: r | 't' :: r | ' ' :: r => some r
    | _ => none
  let (hour, s) ← takeField 2 s
  let (minute, s) ← takeField 2 (← takeMark ':' s)
  let (second, s) ← takeField 2 (← takeMark ':' s)
  let (fraction, s) ← takeFraction s
  let (offset, s) ← takeOffset (dropBlanks s)
  let date : Date := ⟨year, month, day⟩
  guard ((dropBlanks s).isEmpty && date.valid && hour < 24 && minute < 60 && second ≤ 60)
  guard (firstYear ≤ year && year ≤ lastYear)
  let leap := if second = 60 then 1 else 0
  let clock := date.toDays * daySeconds + (hour * 3600 + minute * 60 + (second - leap) : Nat)
  of? (clock - offset) (fraction + leap * 1000000000)

end Instant

end SentenceScript
