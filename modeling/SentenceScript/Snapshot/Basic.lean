import SentenceScript.State.Basic

namespace SentenceScript

/-- A loop laid out flat. Fields that come from outside need not agree with each other. -/
structure LoopView where
  inLoop : Bool := false
  loopType : Option String := none
  bufferedLines : List String := []
  repeatCount : Option UInt64 := none
  whileCondition : Option Guard := none

namespace LoopView

/-- A loop that is replaying is laid out as no loop. -/
def ofLoop : Loop → LoopView
  | .collecting kind body =>
      { inLoop := true
        loopType := some kind.name
        bufferedLines := body
        repeatCount := match kind with
          | .times n => some n
          | .guarded _ => none
        whileCondition := match kind with
          | .times _ => none
          | .guarded guard => some guard }
  | .closed | .replaying _ => {}

/-- A count wins over a guard unless the loop is called `while`. -/
def kind? (v : LoopView) : Option LoopKind :=
  match v.repeatCount, v.whileCondition with
  | some n, guard =>
      if v.loopType = some "while" then guard.map .guarded else some (.times n)
  | none, guard => guard.map .guarded

def toLoop (v : LoopView) : Loop :=
  if v.inLoop then v.kind?.elim .closed (.collecting · v.bufferedLines) else .closed

end LoopView

structure Snapshot where
  bindings : Bindings := []
  tasks : List Task := []
  loop : LoopView := {}
  endpoint : Option String := none
  response : Option SearchResponse := none
  servers : Servers := ∅
  request : Option ModelRequest := none
  reply : Option ModelReply := none
  log : List String := []

namespace Snapshot

def capture (s : State) : Snapshot where
  bindings := s.bindings
  tasks := s.tasks
  loop := .ofLoop s.loop
  endpoint := s.endpoint
  response := s.response
  servers := s.servers
  request := s.request
  reply := s.reply
  log := s.log

def restore (v : Snapshot) : State where
  bindings := v.bindings
  tasks := v.tasks
  loop := v.loop.toLoop
  endpoint := v.endpoint
  response := v.response
  servers := v.servers
  request := v.request
  reply := v.reply
  log := v.log

end Snapshot

end SentenceScript
