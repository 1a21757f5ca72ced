import SentenceScript.Json.Scan

namespace SentenceScript.Json

namespace Scan

mutual

def skip : Scan → Except Fault Unit
  | absent => .error .truncated
  | broken f => .error f
  | null | bool _ => .ok ()
  | number n => n.skipped
  | text s => s.skipped
  | array items close => do skipItems items; close
  | object members close => do skipMembers members; close

def skipItems : List Scan → Except Fault Unit
  | [] => .ok ()
  | item :: items => do item.skip; skipItems items

def skipMembers : List (Lexeme String × Scan) → Except Fault Unit
  | [] => .ok ()
  | (key, value) :: members => do key.skipped; value.skip; skipMembers members

end

def refusal : Scan → Fault
  | absent => .truncated
  | broken f => f
  | number ⟨.error f, _⟩ | text ⟨.error f, _⟩ => f
  | _ => .mismatch

def readText : Scan → Except Fault String
  | text s => s.value
  | s => .error s.refusal

def readBool : Scan → Except Fault Bool
  | bool b => .ok b
  | s => .error s.refusal

def readNatural (bound : Nat) : Scan → Except Fault Nat
  | number ⟨.ok (.natural n), _⟩ => if n < bound then .ok n else .error .mismatch
  | s => .error s.refusal

def readFloat : Scan → Except Fault Float
  | number n => n.value.map Numeral.toFloat
  | s => .error s.refusal

def readOption {α : Type} (read : Scan → Except Fault α) : Scan → Except Fault (Option α)
  | null => .ok none
  | s => (read s).map some

def readItems {α : Type} (read : Scan → Except Fault α) : List Scan → Except Fault (List α)
  | [] => .ok []
  | item :: items => do return (← read item) :: (← readItems read items)

def readList {α : Type} (read : Scan → Except Fault α) : Scan → Except Fault (List α)
  | array items close => do
      let list ← readItems read items
      close
      return list
  | s => .error s.refusal

def readMembers {α : Type} (read : Scan → Except Fault α) :
    List (Lexeme String × Scan) → Except Fault (List (String × α))
  | [] => .ok []
  | (key, value) :: members => do
      return (← key.value, ← read value) :: (← readMembers read members)

def readPairs {α : Type} (read : Scan → Except Fault α) : Scan → Except Fault (List (String × α))
  | object members close => do
      let pairs ← readMembers read members
      close
      return pairs
  | s => .error s.refusal

/-- A choice is written as its name, or as an object with that name as its only key and `null`. -/
def readChoice {α : Type} (names : List (String × α)) : Scan → Except Fault α
  | absent => .error .truncated
  | text s => do ((← s.value) |> names.lookup).elim (.error .mismatch) .ok
  | object [] close => do close; .error .malformed
  | object ((key, value) :: members) close => do
      let choice ← (names.lookup (← key.value)).elim (.error .mismatch) .ok
      match value with
      | null => pure ()
      | s => throw s.refusal
      unless members.isEmpty do throw .malformed
      close
      return choice
  | _ => .error .malformed

mutual

/-- The whole value. A value may lie in fewer than `room` arrays and objects. -/
def toJson (room : Nat) : Scan → Except Fault Json
  | absent => .error .truncated
  | broken f => .error f
  | null => .ok .null
  | bool b => .ok (.bool b)
  | number n => n.value.map fun
      | .natural n => .count n
      | n => .number n.toFloat
  | text s => s.value.map .text
  | array items close =>
      if room ≤ 1 then .error .malformed
      else do
        let items ← itemsToJson (room - 1) items
        close
        return .array items
  | object members close =>
      if room ≤ 1 then .error .malformed
      else do
        let members ← membersToJson (room - 1) members
        close
        return .object members

def itemsToJson (room : Nat) : List Scan → Except Fault (List Json)
  | [] => .ok []
  | item :: items => do return (← item.toJson room) :: (← itemsToJson room items)

def membersToJson (room : Nat) :
    List (Lexeme String × Scan) → Except Fault (List (String × Json))
  | [] => .ok []
  | (key, value) :: members => do
      return (← key.value, ← value.toJson room) :: (← membersToJson room members)

end

end Scan

namespace Record

structure Field (α : Type) where
  name : String
  optional : Bool
  set : Scan → α → Except Fault α

variable {α : Type}

/-- A record written as an array has all its fields in order. -/
def ofItems : List (Field α) → List Scan → Except Fault Unit → α → Except Fault α
  | [], [], close, a => do close; return a
  | [], _ :: _, _, _ => .error .malformed
  | _ :: _, [], close, _ => do close; .error .mismatch
  | f :: fs, item :: items, close, a => do ofItems fs items close (← f.set item a)

/-- A record written as an object has each field at most once, in any order; other members are
stepped over. -/
def ofMembers (fields : List (Field α)) :
    List (Lexeme String × Scan) → List String → α → Except Fault (List String × α)
  | [], seen, a => .ok (seen, a)
  | (key, value) :: members, seen, a => do
      let key ← key.value
      match fields.find? (·.name == key) with
      | none =>
          value.skip
          ofMembers fields members seen a
      | some f =>
          if key ∈ seen then throw .mismatch
          ofMembers fields members (key :: seen) (← f.set value a)

def read (fields : List (Field α)) (blank : α) : Scan → Except Fault α
  | .array items close => ofItems fields items close blank
  | .object members close => do
      let (seen, a) ← ofMembers fields members [] blank
      close
      if fields.all fun f => f.optional || f.name ∈ seen then return a else throw .mismatch
  | s => .error s.refusal

end Record

def decode {α : Type} (read : Scan → Except Fault α) (s : String) : Except Fault α := do
  let (value, rest) := scan s.toList
  let a ← read value
  match rest with
  | some r => if (skipSpace r).isEmpty then return a else throw .malformed
  | none => throw .truncated

end SentenceScript.Json
