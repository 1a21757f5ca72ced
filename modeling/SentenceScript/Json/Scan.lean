import SentenceScript.Text.Search
import SentenceScript.Decimal.Basic
import SentenceScript.Json.Basic

namespace SentenceScript.Json

open Text

/-- Why a text is refused: it is no JSON, it is JSON of another shape than asked for, or it ends too
early. -/
inductive Fault where
  | malformed
  | mismatch
  | truncated
  deriving DecidableEq, Repr

/-- A number or a string of the text, which can be read for its value or only stepped over. A reader
that steps over it is content with less. -/
structure Lexeme (α : Type) where
  value : Except Fault α
  skipped : Except Fault Unit

/-- Numbers below `2 ^ 64` without fraction and exponent, such numbers with a sign down to
`-2 ^ 63`, and all others. -/
inductive Numeral where
  | natural (n : Nat)
  | negative (n : Nat)
  | real (x : Float)

def Numeral.toFloat : Numeral → Float
  | natural n => Decimal.toFloat ⟨false, n, 0⟩
  | negative n => Decimal.toFloat ⟨true, n, 0⟩
  | real x => x

/-- A text as far as it is JSON. Arrays and objects know what stops them if they are not closed.
Behind a comma there is always an item, if only an absent one. -/
inductive Scan where
  | absent
  | broken (f : Fault)
  | null
  | bool (b : Bool)
  | number (n : Lexeme Numeral)
  | text (s : Lexeme String)
  | array (items : List Scan) (close : Except Fault Unit)
  | object (members : List (Lexeme String × Scan)) (close : Except Fault Unit)

abbrev Scanned (α : Type) := α × Option (List Char)

def isSpace (c : Char) : Bool := c == ' ' || c == '\n' || c == '\t' || c == '\r'

def skipSpace (s : List Char) : List Char := s.dropWhile isSpace

def expect : List Char → List Char → Except Fault (List Char)
  | [], s => .ok s
  | _ :: _, [] => .error .truncated
  | w :: ws, c :: s => if c = w then expect ws s else .error .malformed

def scanWord (word : String) (meaning : Scan) (s : List Char) : Scanned Scan :=
  match expect word.toList s with
  | .ok r => (meaning, some r)
  | .error f => (.broken f, none)

inductive StringUnit where
  | char (c : Char)
  | code (n : Nat)

def hexCode? (a b c d : Char) : Option Nat := do
  return (← hexValue? a) * 4096 + (← hexValue? b) * 256 + (← hexValue? c) * 16 + (← hexValue? d)

def escaped? (c : Char) : Option Char :=
  [('"', '"'), ('\\', '\\'), ('/', '/'), ('b', '\x08'), ('f', '\x0c'), ('n', '\n'), ('r', '\r'),
   ('t', '\t')].lookup c

def tooShortForCode (s : List Char) : Bool := (String.ofList s).utf8ByteSize < 4

def stringUnits : List Char → List StringUnit × Except Fault (List Char)
  | [] => ([], .error .truncated)
  | '"' :: r => ([], .ok r)
  | '\\' :: 'u' :: a :: b :: c :: d :: r =>
      match hexCode? a b c d with
      | some n => let (units, stop) := stringUnits r; (.code n :: units, stop)
      | none => ([], .error .malformed)
  | '\\' :: 'u' :: r => ([], .error (if tooShortForCode r then .truncated else .malformed))
  | ['\\'] => ([], .error .truncated)
  | '\\' :: c :: r =>
      match escaped? c with
      | some e => let (units, stop) := stringUnits r; (.char e :: units, stop)
      | none => ([], .error .malformed)
  | c :: r =>
      if c.toNat < 0x20 then ([], .error .malformed)
      else let (units, stop) := stringUnits r; (.char c :: units, stop)

def isLeading (n : Nat) : Bool := 0xD800 ≤ n && n < 0xDC00

def isTrailing (n : Nat) : Bool := 0xDC00 ≤ n && n < 0xE000

/-- The characters of the units. A leading surrogate needs a trailing one behind it. -/
def joinUnits : List StringUnit → Except Fault Unit → Except Fault (List Char)
  | [], .ok () => .ok []
  | [], .error f => .error f
  | .char c :: r, stop => (joinUnits r stop).map (c :: ·)
  | .code n :: .code m :: r, stop =>
      if isLeading n && isTrailing m then
        (joinUnits r stop).map (Char.ofNat (0x10000 + (n - 0xD800) * 0x400 + (m - 0xDC00)) :: ·)
      else if isLeading n || isTrailing n then .error .malformed
      else (joinUnits (.code m :: r) stop).map (Char.ofNat n :: ·)
  | .code n :: r, stop =>
      if isLeading n then
        match r, stop with
        | [], .error f => .error f
        | _, _ => .error .malformed
      else if isTrailing n then .error .malformed
      else (joinUnits r stop).map (Char.ofNat n :: ·)

def scanString (s : List Char) : Scanned (Lexeme String) :=
  let (units, stop) := stringUnits s
  let skipped := stop.map fun _ => ()
  (⟨(joinUnits units skipped).map String.ofList, skipped⟩, stop.toOption)

def scanKey (s : List Char) : Scanned (Lexeme String) :=
  match skipSpace s with
  | '"' :: r => scanString r
  | [] => (⟨.error .truncated, .error .truncated⟩, none)
  | _ => (⟨.error .malformed, .error .malformed⟩, none)

def wholeNumeral (isNegative : Bool) (n : Nat) : Option Numeral :=
  if isNegative then (if 0 < n ∧ n ≤ Decimal.pow2 63 then some (.negative n) else none)
  else if n < UInt64.size then some (.natural n)
  else none

def realNumeral (d : Decimal) : Except Fault Numeral :=
  if d.toFloat.isFinite then .ok (.real d.toFloat) else .error .malformed

def brokenNumber (rest : List Char) : Scanned (Lexeme Numeral) :=
  (⟨.error (if rest.isEmpty then .truncated else .malformed), .error .malformed⟩, none)

def scanExponent (isNegative : Bool) (whole fraction s : List Char) : Scanned (Lexeme Numeral) :=
  let (down, r) := Decimal.takeSign s
  let ds := r.takeWhile Char.isDigit
  if ds.isEmpty then brokenNumber r
  else
    let power : Int := if down then -(Decimal.valueOf ds : Int) else Decimal.valueOf ds
    let d : Decimal := ⟨isNegative, Decimal.valueOf (whole ++ fraction), power - fraction.length⟩
    (⟨realNumeral d, .ok ()⟩, some (r.dropWhile Char.isDigit))

def scanNumber (isNegative : Bool) (s : List Char) : Scanned (Lexeme Numeral) :=
  let whole := s.takeWhile Char.isDigit
  if whole.isEmpty then brokenNumber s
  else if whole.length ≠ 1 ∧ whole.head? = some '0' then
    (⟨.error .malformed, .error .malformed⟩, none)
  else
    match s.dropWhile Char.isDigit with
    | '.' :: r =>
        let fraction := r.takeWhile Char.isDigit
        if fraction.isEmpty then brokenNumber r
        else
          match r.dropWhile Char.isDigit with
          | 'e' :: e | 'E' :: e => scanExponent isNegative whole fraction e
          | rest =>
              (⟨realNumeral ⟨isNegative, Decimal.valueOf (whole ++ fraction), -fraction.length⟩,
                .ok ()⟩, some rest)
    | 'e' :: e | 'E' :: e => scanExponent isNegative whole [] e
    | rest =>
        let n := Decimal.valueOf whole
        (⟨(wholeNumeral isNegative n).elim (realNumeral ⟨isNegative, n, 0⟩) .ok, .ok ()⟩, some rest)

mutual

/-- A value of the text. Two units of fuel for each character are enough. -/
def scanValue : Nat → List Char → Scanned Scan
  | 0, _ => (.absent, none)
  | fuel + 1, s =>
      match skipSpace s with
      | [] => (.absent, none)
      | 'n' :: r => scanWord "ull" .null r
      | 't' :: r => scanWord "rue" (.bool true) r
      | 'f' :: r => scanWord "alse" (.bool false) r
      | '"' :: r => let (t, rest) := scanString r; (.text t, rest)
      | '-' :: r => let (n, rest) := scanNumber true r; (.number n, rest)
      | '[' :: r =>
          match skipSpace r with
          | [] => (.array [] (.error .truncated), none)
          | ']' :: rest => (.array [] (.ok ()), some rest)
          | r => let (items, stop) := scanItems fuel r
                 (.array items (stop.map fun _ => ()), stop.toOption)
      | '{' :: r =>
          match skipSpace r with
          | [] => (.object [] (.error .truncated), none)
          | '}' :: rest => (.object [] (.ok ()), some rest)
          | r => let (members, stop) := scanMembers fuel r
                 (.object members (stop.map fun _ => ()), stop.toOption)
      | c :: r =>
          if c.isDigit then let (n, rest) := scanNumber false (c :: r); (.number n, rest)
          else (.broken .malformed, none)

def scanItems : Nat → List Char → List Scan × Except Fault (List Char)
  | 0, _ => ([], .error .truncated)
  | fuel + 1, s =>
      match scanValue fuel s with
      | (item, none) => ([item], .error .malformed)
      | (item, some r) =>
          match skipSpace r with
          | ']' :: rest => ([item], .ok rest)
          | ',' :: r => let (items, stop) := scanItems fuel r; (item :: items, stop)
          | [] => ([item], .error .truncated)
          | _ => ([item], .error .malformed)

def scanMembers : Nat → List Char → List (Lexeme String × Scan) × Except Fault (List Char)
  | 0, _ => ([], .error .truncated)
  | fuel + 1, s =>
      match scanKey s with
      | (key, none) => ([(key, .absent)], .error .malformed)
      | (key, some r) =>
          match skipSpace r with
          | ':' :: r =>
              match scanValue fuel r with
              | (value, none) => ([(key, value)], .error .malformed)
              | (value, some r) =>
                  match skipSpace r with
                  | '}' :: rest => ([(key, value)], .ok rest)
                  | ',' :: r =>
                      let (members, stop) := scanMembers fuel r
                      ((key, value) :: members, stop)
                  | [] => ([(key, value)], .error .truncated)
                  | _ => ([(key, value)], .error .malformed)
          | [] => ([(key, .absent)], .error .truncated)
          | _ => ([(key, .broken .malformed)], .error .malformed)

end

def scan (s : List Char) : Scanned Scan := scanValue (2 * s.length + 2) s

end SentenceScript.Json
