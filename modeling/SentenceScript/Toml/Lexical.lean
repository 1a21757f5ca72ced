import SentenceScript.Text.Search

namespace SentenceScript.Toml

open Text

/-- What a reader makes of the head of a text, and the rest. All errors of a document are alike. -/
abbrev Reader (α : Type) := List Char → Option (α × List Char)

def isTab (c : Char) : Bool := c == ' ' || c == '\t'

def skipTabs (s : List Char) : List Char := s.dropWhile isTab

def newline? : List Char → Option (List Char)
  | '\n' :: r => some r
  | '\r' :: '\n' :: r => some r
  | _ => none

/-- No control character but the tab may stand in comments and strings. -/
def isPrintable (c : Char) : Bool := c == '\t' || (0x20 ≤ c.toNat && c.toNat != 0x7F)

def skipComment : List Char → List Char
  | '#' :: r => r.dropWhile isPrintable
  | s => s

def lineEnd? (s : List Char) : Option (List Char) :=
  match skipComment (skipTabs s) with
  | [] => some []
  | r => newline? r

/-- Blanks, line ends and comments. A comment must be ended by a line end. -/
def skipLines : Nat → List Char → List Char
  | 0, s => s
  | fuel + 1, s =>
      match skipTabs s with
      | '#' :: r =>
          match newline? (r.dropWhile isPrintable) with
          | some rest => skipLines fuel rest
          | none => '#' :: r
      | r =>
          match newline? r with
          | some rest => skipLines fuel rest
          | none => r

def codePoint? (ds : List Char) : Option Char := do
  let n ← ds.foldlM (fun n d => (hexValue? d).map (16 * n + ·)) 0
  if n.isValidChar then return Char.ofNat n else none

def escape : Reader Char
  | 'u' :: r => if 4 ≤ r.length then (codePoint? (r.take 4)).map (·, r.drop 4) else none
  | 'U' :: r => if 8 ≤ r.length then (codePoint? (r.take 8)).map (·, r.drop 8) else none
  | c :: r =>
      ([('b', '\x08'), ('t', '\t'), ('n', '\n'), ('f', '\x0c'), ('r', '\r'), ('"', '"'),
        ('\\', '\\')].lookup c).map (·, r)
  | [] => none

def basic : Nat → List Char → Option (List Char × List Char)
  | 0, _ => none
  | fuel + 1, s =>
      match s with
      | '"' :: r => some ([], r)
      | '\\' :: r => do
          let (c, r) ← escape r
          let (t, rest) ← basic fuel r
          return (c :: t, rest)
      | c :: r => do
          guard (isPrintable c)
          let (t, rest) ← basic fuel r
          return (c :: t, rest)
      | [] => none

def literal : List Char → Option (List Char × List Char)
  | [] => none
  | c :: r =>
      if c = '\'' then some ([], r)
      else if isPrintable c then (literal r).map fun (t, rest) => (c :: t, rest)
      else none

/-- The end of a string of several lines: three marks, before which two more may belong to it. -/
def closing? (mark : Char) (s : List Char) : Option (List Char × List Char) :=
  let run := (s.takeWhile (· == mark)).length
  if 3 ≤ run ∧ run ≤ 5 then some (List.replicate (run - 3) mark, s.drop run)
  else if 5 < run then some ([mark, mark], s.drop 5)
  else none

/-- A backslash at the end of a line takes with it all blanks and line ends up to the next other
character. -/
def skipFold? (s : List Char) : Option (List Char) :=
  (newline? (skipTabs s)).map fun r => r.dropWhile fun c => isTab c || c == '\n' || c == '\r'

def foldIsSound : List Char → Bool
  | '\r' :: '\n' :: r => foldIsSound r
  | c :: r => if isTab c || c == '\n' then foldIsSound r else c != '\r'
  | [] => true

def several (mark : Char) (escapes : Bool) : Nat → List Char → Option (List Char × List Char)
  | 0, _ => none
  | fuel + 1, s =>
      match closing? mark s with
      | some closed => some closed
      | none =>
          match newline? s with
          | some r => (several mark escapes fuel r).map fun (t, rest) => ('\n' :: t, rest)
          | none =>
              match s with
              | [] => none
              | c :: r =>
                  if c = '\\' ∧ escapes then
                    match skipFold? r with
                    | some rest =>
                        if foldIsSound (skipTabs r) then several mark escapes fuel rest else none
                    | none => do
                        let (c, r) ← escape r
                        let (t, rest) ← several mark escapes fuel r
                        return (c :: t, rest)
                  else if isPrintable c then
                    (several mark escapes fuel r).map fun (t, rest) => (c :: t, rest)
                  else none

def text (s : List Char) : Option (List Char × List Char) :=
  match s with
  | '"' :: '"' :: '"' :: r => several '"' true (r.length + 1) ((newline? r).getD r)
  | '\'' :: '\'' :: '\'' :: r => several '\'' false (r.length + 1) ((newline? r).getD r)
  | '"' :: r => basic (r.length + 1) r
  | '\'' :: r => literal r
  | _ => none

def isBare (c : Char) : Bool := c.isAlphanum || c == '-' || c == '_'

def keyPart : Reader String
  | '"' :: r => (basic (r.length + 1) r).map fun (t, rest) => (String.ofList t, rest)
  | '\'' :: r => (literal r).map fun (t, rest) => (String.ofList t, rest)
  | s =>
      let bare := s.takeWhile isBare
      if bare.isEmpty then none else some (String.ofList bare, s.dropWhile isBare)

/-- The most parts that a key may have, and the most arrays and tables that may be open at once. -/
def deepest : Nat := 79

def keyParts : Nat → List Char → Option (List String × List Char)
  | 0, _ => none
  | fuel + 1, s => do
      let (part, r) ← keyPart (skipTabs s)
      match skipTabs r with
      | '.' :: r =>
          let (parts, rest) ← keyParts fuel r
          return (part :: parts, rest)
      | r => return ([part], r)

def key : Reader (List String) := keyParts deepest

end SentenceScript.Toml
