import SentenceScript.Decimal.Shortest

namespace SentenceScript

inductive Json where
  | null
  | bool (b : Bool)
  | count (n : Nat)
  | number (x : Float)
  | text (s : String)
  | array (items : List Json)
  | object (members : List (String × Json))

namespace Json

/-- Only the quotation mark, the backslash and the control characters below U+0020 are escaped. -/
def escape (c : Char) : List Char :=
  if c = '"' then ['\\', '"']
  else if c = '\\' then ['\\', '\\']
  else if c = '\n' then ['\\', 'n']
  else if c = '\r' then ['\\', 'r']
  else if c = '\t' then ['\\', 't']
  else if c.toNat = 8 then ['\\', 'b']
  else if c.toNat = 12 then ['\\', 'f']
  else if c.toNat < 0x20 then
    ['\\', 'u', '0', '0', Nat.digitChar (c.toNat / 16), Nat.digitChar (c.toNat % 16)]
  else [c]

def quote (s : String) : List Char := '"' :: s.toList.flatMap escape ++ ['"']

/-- The fewest digits that read back, a tie going to the even digit: with all places and at least
one behind the point from `10 ^ -5` up to below `10 ^ 16`, with an exponent elsewhere. What is not
finite is written as `null`. -/
def numberChars (x : Float) : List Char :=
  if x.isFinite then
    let d := Decimal.ofFloat .even x
    let power : Int := d.exponent + ((Decimal.digitChars d.digits).length - 1 : Nat)
    if -5 ≤ power ∧ power < 16 then d.plain ++ (if 0 ≤ d.exponent then ['.', '0'] else [])
    else d.scientific
  else "null".toList

structure Layout where
  gap : Nat → List Char
  colon : List Char

def Layout.compact : Layout := ⟨fun _ => [], [':']⟩

def Layout.indented : Layout := ⟨fun depth => '\n' :: List.replicate (2 * depth) ' ', [':', ' ']⟩

mutual

def write (l : Layout) (depth : Nat) : Json → List Char
  | null => "null".toList
  | bool b => (if b then "true" else "false").toList
  | count n => Decimal.digitChars n
  | number x => numberChars x
  | text s => quote s
  | array [] => ['[', ']']
  | array (item :: items) =>
      '[' :: l.gap (depth + 1) ++ write l (depth + 1) item ++ writeItems l (depth + 1) items ++
        l.gap depth ++ [']']
  | object [] => ['{', '}']
  | object ((key, value) :: members) =>
      '{' :: l.gap (depth + 1) ++ quote key ++ l.colon ++ write l (depth + 1) value ++
        writeMembers l (depth + 1) members ++ l.gap depth ++ ['}']

def writeItems (l : Layout) (depth : Nat) : List Json → List Char
  | [] => []
  | item :: items => ',' :: l.gap depth ++ write l depth item ++ writeItems l depth items

def writeMembers (l : Layout) (depth : Nat) : List (String × Json) → List Char
  | [] => []
  | (key, value) :: members =>
      ',' :: l.gap depth ++ quote key ++ l.colon ++ write l depth value ++
        writeMembers l depth members

end

def compact (j : Json) : String := String.ofList (j.write .compact 0)

def pretty (j : Json) : String := String.ofList (j.write .indented 0)

def ofOption {α : Type} (f : α → Json) : Option α → Json
  | none => null
  | some a => f a

end Json

end SentenceScript
