namespace SentenceScript.Toml

mutual

inductive Value where
  | boolean (b : Bool)
  | integer (i : Int)
  | real (x : Float)
  | text (s : String)
  | moment (s : String)
  | array (items : List Value)
  | inline (table : Table)

inductive Item where
  | value (v : Value)
  | table (t : Table)
  | tables (ts : List Table)

/-- A table is implicit if only longer keys have named it, and dotted if these were not in
brackets. -/
inductive Table where
  | mk (isImplicit isDotted : Bool) (items : List (String × Item))

end

namespace Table

def empty : Table := mk false false []

def isImplicit : Table → Bool
  | mk i _ _ => i

def isDotted : Table → Bool
  | mk _ d _ => d

def items : Table → List (String × Item)
  | mk _ _ items => items

def get? (t : Table) (key : String) : Option Item := t.items.lookup key

def set (t : Table) (key : String) (item : Item) : Table :=
  mk t.isImplicit t.isDotted
    (if (t.get? key).isSome then t.items.map fun (k, old) => (k, if k = key then item else old)
     else t.items ++ [(key, item)])

/-- Changes the table at the end of a path. Tables on the way are made where there are none, and of
an array of tables the last is meant. A dotted path cannot enter a table that has a header. -/
def alter (dotted : Bool) (change : Table → Option Table) : List String → Table → Option Table
  | [], t => change t
  | key :: path, t =>
      match t.get? key with
      | none => do return t.set key (.table (← alter dotted change path (mk true dotted [])))
      | some (.value _) => none
      | some (.table child) =>
          if dotted && !child.isImplicit then none
          else do return t.set key (.table (← alter dotted change path child))
      | some (.tables children) => do
          let child ← alter dotted change path (← children.getLast?)
          return t.set key (.tables (children.dropLast ++ [child]))

/-- Sets a key that must be new. Its path must end in a table that dotted keys have made. -/
def define (path : List String) (key : String) (v : Value) (t : Table) : Option Table :=
  alter true (fun t =>
    if t.isDotted == path.isEmpty || (t.get? key).isSome then none
    else some (t.set key (.value v))) path t

/-- Opens a table in brackets, which may so far only have been implied by other headers. -/
def openTable (path : List String) (key : String) (t : Table) : Option Table :=
  alter false (fun t =>
    match t.get? key with
    | none => some (t.set key (.table empty))
    | some (.table child) =>
        if child.isImplicit && !child.isDotted then
          some (t.set key (.table (mk false false child.items)))
        else none
    | some _ => none) path t

def openNext (path : List String) (key : String) (t : Table) : Option Table :=
  alter false (fun t =>
    match t.get? key with
    | none => some (t.set key (.tables [empty]))
    | some (.tables children) => some (t.set key (.tables (children ++ [empty])))
    | some _ => none) path t

end Table

end SentenceScript.Toml
