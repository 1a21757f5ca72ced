import SentenceScript.Toml.Document

namespace SentenceScript

structure Settings where
  maxPasses : Nat := 1000
  /-- The characters shown of a message that is sent. -/
  previewLength : Nat := 100
  echo : Bool := true
  deriving DecidableEq, Repr

inductive SettingsError where
  | unreadable
  | invalid
  deriving DecidableEq, Repr

namespace Settings

open Toml

def natural (t : Table) (key : String) (default : Nat) : Except SettingsError Nat :=
  match t.get? key with
  | none => .ok default
  | some (.value (.integer i)) => if 0 ≤ i then .ok i.toNat else .error .invalid
  | some _ => .error .invalid

def flag (t : Table) (key : String) (default : Bool) : Except SettingsError Bool :=
  match t.get? key with
  | none => .ok default
  | some (.value (.boolean b)) => .ok b
  | some _ => .error .invalid

/-- Settings from a TOML document. Keys that mean nothing here are passed over. -/
def ofDocument (source : String) : Except SettingsError Settings := do
  let t ← (document source).elim (.error .invalid) .ok
  let usual : Settings := {}
  return { maxPasses := ← natural t "max_while_iterations" usual.maxPasses
           previewLength := ← natural t "preview_chars" usual.previewLength
           echo := ← flag t "echo_output" usual.echo }

def ofFile? (bytes : Option (List UInt8)) : Except SettingsError Settings :=
  match bytes.bind fun bs => String.fromUTF8? (ByteArray.mk bs.toArray) with
  | some source => ofDocument source
  | none => .error .unreadable

end Settings

end SentenceScript
