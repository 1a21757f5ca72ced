import SentenceScript.Sentence.Command
import SentenceScript.State.Bindings
import SentenceScript.State.Servers

namespace SentenceScript

structure Task where
  name : String
  status : String
  deriving DecidableEq, Repr

namespace Task

def completeStatus : String := "complete"

def isComplete (t : Task) : Bool := t.status == completeStatus

def withStatus (tasks : List Task) (status : String) : List Task :=
  tasks.filter (·.status == status)

/-- Gives the first task of that name a new status. -/
def setStatus? : List Task → String → String → Option (List Task)
  | [], _, _ => none
  | t :: rest, name, status =>
      if t.name = name then some ({ t with status } :: rest)
      else (setStatus? rest name status).map (t :: ·)

theorem setStatus?_eq_none {tasks : List Task} {name status : String} :
    setStatus? tasks name status = none ↔ ∀ task ∈ tasks, task.name ≠ name := by
  induction tasks with
  | nil => simp [setStatus?]
  | cons t rest ih => by_cases h : t.name = name <;> simp [setStatus?, h, ih]

end Task

structure Guard where
  subject : String
  comparison : Comparison
  threshold : Float

inductive LoopKind where
  | times (count : UInt64)
  | guarded (guard : Guard)

def LoopKind.name : LoopKind → String
  | times _ => "repeat"
  | guarded _ => "while"

/-- There is at most one loop: its body is collected line by line, and replayed when it ends. -/
inductive Loop where
  | closed
  | collecting (kind : LoopKind) (body : List String)
  | replaying (kind : LoopKind)

namespace Loop

def kind? : Loop → Option LoopKind
  | closed => none
  | collecting kind _ => some kind
  | replaying kind => some kind

def isCollecting : Loop → Bool
  | collecting .. => true
  | _ => false

def extend? : Loop → String → Option Loop
  | collecting kind body, line => some (collecting kind (body ++ [line]))
  | _, _ => none

end Loop

structure State where
  bindings : Bindings := []
  tasks : List Task := []
  loop : Loop := .closed
  endpoint : Option String := none
  response : Option SearchResponse := none
  servers : Servers := ∅
  request : Option ModelRequest := none
  reply : Option ModelReply := none
  log : List String := []

namespace State

def say (s : State) (line : String) : State := { s with log := s.log ++ [line] }

def sayAll (s : State) (lines : List String) : State := { s with log := s.log ++ lines }

def assign (s : State) (name : String) (value : Value) : State :=
  { s with bindings := s.bindings.put name value }

end State

end SentenceScript
