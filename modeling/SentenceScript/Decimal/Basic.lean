import SentenceScript.Text.Search

namespace SentenceScript

open Text

/-- The number `digits · 10 ^ exponent`, negated if `negative`. -/
structure Decimal where
  negative : Bool
  digits : Nat
  exponent : Int
  deriving DecidableEq, Repr

namespace Decimal

def pow2 (k : Nat) : Nat := Nat.pow 2 k

def pow10 (k : Nat) : Nat := Nat.pow 10 k

def valueOf (ds : List Char) : Nat := ds.foldl (fun n d => 10 * n + (d.toNat - '0'.toNat)) 0

def takeSign : List Char → Bool × List Char
  | '-' :: r => (true, r)
  | '+' :: r => (false, r)
  | r => (false, r)

def power? : List Char → Option Int
  | [] => some 0
  | c :: r =>
      let (negative, ds) := takeSign r
      if (c = 'e' ∨ c = 'E') ∧ ds ≠ [] ∧ ds.all Char.isDigit then
        some (if negative then -(valueOf ds : Int) else valueOf ds)
      else none

def unsigned? (negative : Bool) (s : List Char) : Option Decimal :=
  let whole := s.takeWhile Char.isDigit
  match s.dropWhile Char.isDigit with
  | '.' :: r =>
      let fraction := r.takeWhile Char.isDigit
      if whole.isEmpty && fraction.isEmpty then none
      else
        (power? (r.dropWhile Char.isDigit)).map fun e =>
          ⟨negative, valueOf (whole ++ fraction), e - fraction.length⟩
  | r =>
      if whole.isEmpty then none
      else (power? r).map fun e => ⟨negative, valueOf whole, e⟩

def read? (s : List Char) : Option Decimal :=
  let (negative, body) := takeSign s
  unsigned? negative body

/-- The quotient rounded to nearest, a half going to the even neighbour. -/
def roundDiv (num den : Nat) : Nat :=
  let q := num / den
  let r := num % den
  if den < 2 * r ∨ (2 * r = den ∧ q % 2 = 1) then q + 1 else q

def leadingBit (num den : Nat) : Int :=
  let b : Int := (num.log2 : Int) - den.log2
  if den * pow2 b.toNat ≤ num * pow2 (-b).toNat then b else b - 1

def infinityBits : Nat := 0x7FF * pow2 52

/-- The bits of the binary64 number nearest to the quotient. The significand is counted in units of
`2 ^ unit`, with 53 bits unless that unit would be below the least one, `2 ^ -1074`; a carry out of
the significand then lands in the exponent field, as it should. -/
def ratioBits (num den : Nat) : Nat :=
  if num = 0 then 0
  else
    let unit := max (leadingBit num den - 52) (-1074)
    let significand := roundDiv (num * pow2 (-unit).toNat) (den * pow2 unit.toNat)
    min ((unit + 1074).toNat * pow2 52 + significand) infinityBits

/-- The bits of the binary64 number nearest to `digits · 10 ^ exponent`. The first three cases spare
the computation of powers of ten far outside the range. -/
def magnitudeBits (digits : Nat) (exponent : Int) : Nat :=
  if digits = 0 then 0
  else if 400 < exponent then infinityBits
  else if (digits.log2 : Int) + exponent < -400 then 0
  else ratioBits (digits * pow10 exponent.toNat) (pow10 (-exponent).toNat)

def signBit (negative : Bool) : Nat := if negative then pow2 63 else 0

def toFloat (d : Decimal) : Float :=
  Float.ofBits (UInt64.ofNat (signBit d.negative + magnitudeBits d.digits d.exponent))

end Decimal

end SentenceScript
