import SentenceScript.Toml.Scalar
import SentenceScript.Toml.Table

namespace SentenceScript.Toml

def scalar (s : List Char) : Option (Value × List Char) :=
  match s with
  | '"' :: _ | '\'' :: _ => (text s).map fun (t, rest) => (.text (String.ofList t), rest)
  | 't' :: _ => (isWord "true" s).map fun rest => (.boolean true, rest)
  | 'f' :: _ => (isWord "false" s).map fun rest => (.boolean false, rest)
  | _ =>
      match moment s with
      | some rest => some (.moment (String.ofList (s.take (s.length - rest.length))), rest)
      | none =>
          match real s with
          | some (x, rest) => some (.real x, rest)
          | none => (integer s).map fun (i, rest) => (.integer i, rest)

def arrayItems (item : Reader Value) : Nat → List Char → Option (List Value × List Char)
  | 0, _ => none
  | fuel + 1, s =>
      match skipLines fuel s with
      | ']' :: rest => some ([], rest)
      | s => do
          let (v, r) ← item s
          match skipLines fuel r with
          | ']' :: rest => return ([v], rest)
          | ',' :: r =>
              let (vs, rest) ← arrayItems item fuel r
              return (v :: vs, rest)
          | _ => none

def keyValue (item : Reader Value) : Reader (List String × Value) := fun s => do
  let (path, r) ← key s
  let r ← mark '=' r
  let (v, rest) ← item (skipTabs r)
  return ((path, v), rest)

def defineAt (t : Table) (path : List String) (v : Value) : Option Table := do
  t.define path.dropLast (← path.getLast?) v

def inlineMembers (item : Reader Value) : Nat → Table → List Char → Option (Table × List Char)
  | 0, _, _ => none
  | fuel + 1, t, s => do
      let ((path, v), r) ← keyValue item s
      let t ← defineAt t path v
      match skipTabs r with
      | '}' :: rest => return (t, rest)
      | ',' :: r => inlineMembers item fuel t r
      | _ => none

def inlineTable (item : Reader Value) (s : List Char) : Option (Table × List Char) :=
  match skipTabs s with
  | '}' :: rest => some (.empty, rest)
  | s => inlineMembers item (s.length + 1) .empty s

/-- A value with no more than `room` arrays and inline tables in one another. -/
def value : Nat → Reader Value
  | 0, s => scalar s
  | room + 1, s =>
      match s with
      | '[' :: r =>
          (arrayItems (value room) (r.length + 1) r).map fun (vs, rest) => (.array vs, rest)
      | '{' :: r => (inlineTable (value room) r).map fun (t, rest) => (.inline t, rest)
      | s => scalar s

structure Draft where
  root : Table
  header : List String

def Draft.define (d : Draft) (path : List String) (v : Value) : Option Draft := do
  return { d with root := ← d.root.alter false (defineAt · path v) d.header }

def Draft.openTable (d : Draft) (path : List String) : Option Draft := do
  return ⟨← d.root.openTable path.dropLast (← path.getLast?), path⟩

def Draft.openNext (d : Draft) (path : List String) : Option Draft := do
  return ⟨← d.root.openNext path.dropLast (← path.getLast?), path⟩

def statement (d : Draft) (s : List Char) : Option (Draft × List Char) :=
  match s with
  | '[' :: '[' :: r => do
      let (path, r) ← key r
      let r ← mark ']' (← mark ']' r)
      return (← d.openNext path, ← lineEnd? r)
  | '[' :: r => do
      let (path, r) ← key r
      let r ← mark ']' r
      return (← d.openTable path, ← lineEnd? r)
  | s => do
      let ((path, v), r) ← keyValue (value deepest) s
      return (← d.define path v, ← lineEnd? r)

def statements : Nat → Draft → List Char → Option Draft
  | 0, _, _ => none
  | fuel + 1, d, s =>
      match skipTabs s with
      | [] => some d
      | '#' :: r => do statements fuel d (← lineEnd? ('#' :: r))
      | r =>
          match newline? r with
          | some rest => statements fuel d rest
          | none => do
              let (d, rest) ← statement d r
              statements fuel d rest

def document (source : String) : Option Table :=
  let s := match source.toList with
    | '\ufeff' :: r => r
    | s => s
  (statements (s.length + 1) ⟨.empty, []⟩ s).map (·.root)

end SentenceScript.Toml
