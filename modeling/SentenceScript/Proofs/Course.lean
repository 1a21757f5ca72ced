import SentenceScript.Session

namespace SentenceScript

namespace Session

/-- One thing done in a session. -/
inductive Turn where
  | run (source : String)
  | feed (line : String)
  | reset
  | save
  | restore (n : Nat)

namespace Turn

/-- What comes of a turn, given the snapshots saved so far. Only a script gives lines. To restore a
snapshot that was not saved changes nothing. -/
def step (x : Session) (saved : List Snapshot) : Turn → Step (List String)
  | run source => x.run source
  | feed line =>
      let done := x.feed line
      ⟨done.session, done.result.map fun _ => [], done.echoed⟩
  | reset => ⟨x.reset, .ok [], []⟩
  | save => ⟨x, .ok [], []⟩
  | restore n => ⟨saved[n]?.elim x x.restore, .ok [], []⟩

/-- The snapshots saved after a turn. -/
def saves (x : Session) (saved : List Snapshot) : Turn → List Snapshot
  | save => saved ++ [x.snapshot]
  | _ => saved

end Turn

/-- A session under way, with the snapshots saved of it and the results of its turns, both in order. -/
structure Course where
  session : Session
  saved : List Snapshot := []
  results : List (Except Failure (List String)) := []

namespace Course

def take (c : Course) (turn : Turn) : Course where
  session := (turn.step c.session c.saved).session
  saved := turn.saves c.session c.saved
  results := c.results ++ [(turn.step c.session c.saved).result]

def takeAll (c : Course) (turns : List Turn) : Course := turns.foldl take c

/-- What one turn carries over between two courses, any turns do. -/
theorem takeAll_related {R : Course → Course → Prop}
    (hstep : ∀ c d turn, R c d → R (c.take turn) (d.take turn)) {c d : Course} (h : R c d)
    (turns : List Turn) : R (c.takeAll turns) (d.takeAll turns) := by
  induction turns generalizing c d with
  | nil => exact h
  | cons turn turns ih => exact ih (hstep c d turn h)

end Course

theorem Turn.step_feed (x : Session) (saved : List Snapshot) (line : String) :
    Turn.step x saved (.feed line) = x.step x.state.log.length
      (State.record (State.feed x.world line) x.state) fun _ => [] := by
  simp only [Turn.step, Session.feed, Session.step]
  generalize State.record (State.feed x.world line) x.state = o
  cases o with
  | ok | error => rfl

theorem Turn.step_world (x : Session) (saved : List Snapshot) (turn : Turn) :
    (turn.step x saved).session.world = x.world := by
  cases turn with
  | run source => simp only [Turn.step, Session.run, Session.step]
  | feed line => simp only [Turn.step, Session.feed, Session.step]
  | reset | save => rfl
  | restore n =>
      simp only [Turn.step]
      cases saved[n]? with
      | none => rfl
      | some v => rfl

end Session

end SentenceScript
