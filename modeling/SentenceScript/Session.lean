import SentenceScript.Text.Rows
import SentenceScript.Service.Canned
import SentenceScript.Run.Script
import SentenceScript.Snapshot.Basic
import SentenceScript.Speech

namespace SentenceScript

structure Session where
  world : World
  state : State := {}

structure Session.Step (α : Type) where
  session : Session
  result : Except Failure α
  echoed : List String

namespace Session

def echoSince (settings : Settings) (length : Nat) (s : State) : List String :=
  if settings.echo then s.log.drop length else []

def step {α : Type} (x : Session) (length : Nat) (o : Outcome) (result : State → α) : Step α :=
  { session := { x with state := o.state }
    result := o.failure.elim (.ok (result o.state)) .error
    echoed := echoSince x.world.settings length o.state }

/-- Runs a script with an empty log, and gives the log at its end. The first line that fails ends
it. -/
def run (x : Session) (source : String) : Step (List String) :=
  let script := State.feedAll x.world (Text.scriptLines source)
  x.step 0 (State.record script { x.state with log := [] }) (·.log)

def feed (x : Session) (line : String) : Step Unit :=
  x.step x.state.log.length (State.record (State.feed x.world line) x.state) fun _ => ()

def reset (x : Session) : Session := { x with state := {} }

def snapshot (x : Session) : Snapshot := .capture x.state

def restore (x : Session) (v : Snapshot) : Session := { x with state := v.restore }

def ofSnapshot (now : Instant) (v : Snapshot) : Session :=
  { world := ⟨{}, Canned.services now⟩, state := v.restore }

def valueOf? (x : Session) (name : String) : Option Value := x.state.bindings.get? name

def evaluate (x : Session) (name : String) : Except Failure Value := x.state.lookup name

def speech (x : Session) : String := Speech.ofState x.state

end Session

end SentenceScript
