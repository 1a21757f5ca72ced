import SentenceScript.Text.Rows
import SentenceScript.Decimal.Shortest
import SentenceScript.Sentence.Command

namespace SentenceScript

inductive Value where
  | number (n : Float)
  | text (s : String)

/-- A number as scripts show it: the fewest digits that read back, a tie going up, never an
exponent, and no sign on zero. -/
def numberText (n : Float) : String :=
  if n.isNaN then "NaN"
  else if n.isInf then (if 0 < n then "Infinity" else "-Infinity")
  else if n == 0 then "0"
  else String.ofList (Decimal.ofFloat .up n).plain

namespace Value

def render : Value → String
  | number n => numberText n
  | text s => s

def number? : Value → Option Float
  | number n => some n
  | text _ => none

def text? : Value → Option String
  | number _ => none
  | text s => some s

def isNumber (v : Value) : Bool := v.number?.isSome

def nan : Float := 0 / 0

def infinity : Float := 1 / 0

/-- The words for what is not finite, read in any case and behind any sign. -/
def words : List (List Char × Float) :=
  [("inf".toList, infinity), ("infinity".toList, infinity), ("nan".toList, nan)]

def word? (s : List Char) : Option Float :=
  let (negative, body) := Decimal.takeSign s
  (words.lookup (body.map Char.toLower)).map fun x => if negative then -x else x

def parse? (s : List Char) : Option Float :=
  ((Decimal.read? s).map Decimal.toFloat).or (word? s)

def startsDecimal (c : Char) : Bool := c.isDigit || c == '.'

/-- Only what starts with a digit or a point behind its sign is parsed, which keeps the words out. -/
def parseDecimal? (s : List Char) : Option Float :=
  if (Decimal.takeSign s).2.head?.any startsDecimal then parse? s else none

/-- The number a text spells: zero if it is blank, NaN if it is no decimal number. -/
def coerce (s : String) : Float :=
  let body := Text.strip s.toList
  if body.isEmpty then 0 else (parseDecimal? body).getD nan

def toNumber : Value → Float
  | number n => n
  | text s => coerce s

def size (v : Value) : Nat := v.render.length

def numericOrder? (x y : Float) : Option Ordering :=
  if x < y then some .lt else if y < x then some .gt else if x == y then some .eq else none

/-- Texts are ordered by their characters, all else by number. -/
def order? : Value → Value → Option Ordering
  | text s, text t => some (compare s t)
  | a, b => numericOrder? a.toNumber b.toNumber

end Value

def Comparison.wanted : Comparison → Ordering
  | above => .gt
  | below => .lt
  | equalTo => .eq

/-- A text and a number are never equal. -/
def Comparison.holds (c : Comparison) (a b : Value) : Bool :=
  (c != .equalTo || a.isNumber == b.isNumber) && Value.order? a b == some c.wanted

end SentenceScript
