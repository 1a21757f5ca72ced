import SentenceScript.Decimal.Basic

namespace SentenceScript.Decimal

inductive Tie where
  | even
  | up
  deriving DecidableEq, Repr

/-- The positive number `significand · 2 ^ unit`; `narrow` if the next smaller binary64 number is
only half a unit away. -/
structure Binary where
  significand : Nat
  unit : Int
  narrow : Bool

def Binary.ofBits (bits : Nat) : Binary :=
  let field : Nat := bits / pow2 52
  let fraction : Nat := bits % pow2 52
  if field = 0 then ⟨fraction, -1074, false⟩
  else ⟨pow2 52 + fraction, (field : Int) - 1075, fraction = 0 ∧ 1 < field⟩

namespace Binary

/-- The ends of the interval of reals nearest to the number, in quarters of its unit. -/
def low (b : Binary) : Nat := 4 * b.significand - (if b.narrow then 1 else 2)

def high (b : Binary) : Nat := 4 * b.significand + 2

/-- A point of the grid of multiples of `10 ^ g` times `scale` compares with quarters of the unit
times `weight`. -/
def weight (b : Binary) (g : Int) : Nat := pow2 (b.unit - 2).toNat * pow10 (-g).toNat

def scale (b : Binary) (g : Int) : Nat := pow2 (2 - b.unit).toNat * pow10 g.toNat

/-- Whether `c · 10 ^ g` reads back as the number. The ends of the interval do so only if the
significand is even. -/
def admits (b : Binary) (g : Int) (c : Nat) : Bool :=
  let x := c * b.scale g
  if b.significand % 2 = 0 then b.low * b.weight g ≤ x && x ≤ b.high * b.weight g
  else b.low * b.weight g < x && x < b.high * b.weight g

def onGrid? (b : Binary) (tie : Tie) (g : Int) : Option Nat :=
  let value := 4 * b.significand * b.weight g
  let c := value / b.scale g
  let middle := (2 * c + 1) * b.scale g
  match b.admits g c, b.admits g (c + 1) with
  | false, false => none
  | true, false => some c
  | false, true => some (c + 1)
  | true, true =>
      if 2 * value < middle then some c
      else if middle < 2 * value then some (c + 1)
      else if tie = .even ∧ c % 2 = 0 then some c
      else some (c + 1)

/-- The first grid with a hit, from coarse to fine. On the last one the number itself is a point. -/
def search (b : Binary) (tie : Tie) : Nat → Int → Nat × Int
  | 0, _ =>
      if 0 ≤ b.unit then (b.significand * pow2 b.unit.toNat, 0)
      else (b.significand * Nat.pow 5 (-b.unit).toNat, b.unit)
  | n + 1, g =>
      match b.onGrid? tie g with
      | some c => (c, g)
      | none => search b tie n (g - 1)

/-- The fewest digits that read back, and of those the nearest. The search begins at a power of ten
above the number. -/
def shortest (b : Binary) (tie : Tie) : Nat × Int :=
  let top := ((b.significand.log2 : Int) + 1 + b.unit) * 30103 / 100000 + 2
  b.search tie (top - min b.unit 0).toNat top

end Binary

def isNegative (x : Float) : Bool := pow2 63 ≤ x.toBits.toNat

def bitsOf (x : Float) : Nat := x.toBits.toNat % pow2 63

def ofFloat (tie : Tie) (x : Float) : Decimal :=
  if bitsOf x = 0 then ⟨isNegative x, 0, 0⟩
  else
    let (digits, exponent) := (Binary.ofBits (bitsOf x)).shortest tie
    ⟨isNegative x, digits, exponent⟩

def digitChars (n : Nat) : List Char := Nat.toDigits 10 n

def zeros (n : Nat) : List Char := List.replicate n '0'

def signChars (negative : Bool) : List Char := if negative then ['-'] else []

def pointed (ds : List Char) (places : Nat) : List Char :=
  let padded := zeros (places + 1 - ds.length) ++ ds
  padded.take (padded.length - places) ++ '.' :: padded.drop (padded.length - places)

def plain (d : Decimal) : List Char :=
  let ds := digitChars d.digits
  signChars d.negative ++
    (if 0 ≤ d.exponent then ds ++ zeros d.exponent.toNat else pointed ds (-d.exponent).toNat)

def scientific (d : Decimal) : List Char :=
  let ds := digitChars d.digits
  let power : Int := d.exponent + (ds.length - 1 : Nat)
  signChars d.negative ++ ds.take 1 ++ (if ds.length ≤ 1 then [] else '.' :: ds.drop 1) ++
    'e' :: (if power < 0 then '-' else '+') :: digitChars power.natAbs

end SentenceScript.Decimal
