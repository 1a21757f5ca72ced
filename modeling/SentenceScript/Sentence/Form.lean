import SentenceScript.Text.Rows
import SentenceScript.Text.Search
import SentenceScript.Sentence.Command

namespace SentenceScript

open Text

inductive Slot where
  | name
  | number
  | count
  | quoted
  | phrase
  | clauses
  | remark
  deriving DecidableEq, Repr

inductive Piece where
  | words (choices : List String)
  | slot (kind : Slot)
  deriving DecidableEq, Repr

namespace Slot

/-- What a slot takes from the head of a text: its captures, and the rest. -/
abbrev Taken := Option (List (List Char) × List Char)

def takeName : List Char → Taken
  | [] => none
  | c :: r =>
      if isNameStart c then some ([c :: r.takeWhile isNamePart], r.dropWhile isNamePart) else none

def takeCount (s : List Char) : Taken :=
  if (s.takeWhile Char.isDigit).isEmpty then none
  else some ([s.takeWhile Char.isDigit], s.dropWhile Char.isDigit)

def takeUnsigned (s : List Char) : Option (List Char × List Char) :=
  let whole := s.takeWhile Char.isDigit
  if whole.isEmpty then none
  else
    match s.dropWhile Char.isDigit with
    | '.' :: r =>
        let fraction := r.takeWhile Char.isDigit
        if fraction.isEmpty then some (whole, '.' :: r)
        else some (whole ++ '.' :: fraction, r.dropWhile Char.isDigit)
    | r => some (whole, r)

def takeNumber : List Char → Taken
  | '-' :: r => (takeUnsigned r).map fun (n, rest) => (['-' :: n], rest)
  | s => (takeUnsigned s).map fun (n, rest) => ([n], rest)

def takeQuoted : List Char → Taken
  | '"' :: r =>
      match r.dropWhile (· != '"') with
      | '"' :: rest => some ([r.takeWhile (· != '"')], rest)
      | _ => none
  | _ => none

def takePhrase (s : List Char) : Taken :=
  Comparison.phrases.findSome? fun (w, _) =>
    (eat? w.toList s).map fun rest => ([s.take w.length], rest)

def wholeRow? (s : List Char) : Option (List Char) :=
  if s.isEmpty || s.contains '\n' then none else some s

/-- Blanks and then one row, with as many blanks as leave a row. -/
def blanksThenRow? : List Char → Option (List Char)
  | [] => none
  | c :: r => if isBlank c then (blanksThenRow? r).or (wholeRow? r) else none

def otherwise? : List Char → Option (List Char)
  | [] => none
  | c :: r =>
      if isBlank c then (eat? "otherwise".toList (dropBlanks r)).bind blanksThenRow? else none

/-- The first clause ends before the first `otherwise` that has a clause behind it. -/
def splitClauses : List Char → Option (List Char × Option (List Char))
  | [] => none
  | c :: r =>
      if c = '\n' then none
      else
        match otherwise? r with
        | some no => some ([c], some no)
        | none =>
            if r.isEmpty then some ([c], none)
            else (splitClauses r).map fun (yes, no) => (c :: yes, no)

def takeClauses (s : List Char) : Taken :=
  (splitClauses s).map fun (yes, no) => (yes :: no.toList, [])

def takeRemark (s : List Char) : Taken :=
  if (dropBlanks s).contains '\n' then none else some ([dropBlanks s], [])

def take : Slot → List Char → Taken
  | name => takeName
  | number => takeNumber
  | count => takeCount
  | quoted => takeQuoted
  | phrase => takePhrase
  | clauses => takeClauses
  | remark => takeRemark

end Slot

def Piece.take : Piece → List Char → Slot.Taken
  | .words choices, s => (choices.findSome? fun w => eat? w.toList s).map fun r => ([], r)
  | .slot kind, s => kind.take s

abbrev Form := List Piece

/-- The captures of a text that has this form from its first to its last character. Each piece takes
all it can: what follows a slot never starts with a character that the slot could take. -/
def Form.read? : Form → List Char → Option (List (List Char))
  | [], s => if s.isEmpty then some [] else none
  | p :: ps, s => do
      let (captures, rest) ← p.take s
      let more ← Form.read? ps rest
      return captures ++ more

end SentenceScript
