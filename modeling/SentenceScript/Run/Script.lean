import SentenceScript.Sentence.Clause
import SentenceScript.Run.Act

namespace SentenceScript

namespace Sentence

/-- Executes a line, given what the end of a loop does. A conditional executes the clause that it
chooses, or nothing if it chooses none. Each clause is shorter than its line. -/
def execute (world : World) (finish : Action Unit) (line : String) : Action Unit :=
  match h : (classify line).command with
  | .conditional c yes none =>
      have := classify_conditional h
      do if ← Action.test c then execute world finish yes
  | .conditional c yes (some no) =>
      have := classify_conditional h
      do if ← Action.test c then execute world finish yes else execute world finish no
  | _ => (classify line).act world finish
termination_by line.length
decreasing_by
  · exact this.1
  · exact this.1
  · exact this.2 no rfl

end Sentence

namespace Replay

open SentenceScript.Action

/-- One line of a body. No line can end the loop that it is part of. -/
def line (world : World) (text : String) : Action Unit :=
  Sentence.execute world (throw .noActiveLoop) text

def body (world : World) (lines : List String) : Action Unit := lines.forM (line world)

def counted (world : World) (lines : List String) : (left i : Nat) → Action Unit
  | 0, _ => pure ()
  | left + 1, i => do
      say ("  Iteration " ++ toString i ++ ":")
      body world lines
      counted world lines left (i + 1)

def announce (guard : Guard) (i : Nat) (value : Value) : String :=
  "  Iteration " ++ toString i ++ ": " ++ guard.subject ++ " = " ++ value.render

/-- The passes of a guarded loop that are left, numbered from `i`. The guard is not looked at again
once none is left. -/
def guarded (world : World) (guard : Guard) (lines : List String) : (left i : Nat) → Action Unit
  | 0, _ => throw (.loopOverrun world.settings.maxPasses)
  | left + 1, i => do
      let value ← lookup guard.subject
      if guard.comparison.holds value (.number guard.threshold) then
        say (announce guard i value)
        body world lines
        guarded world guard lines left (i + 1)

def passes (world : World) (lines : List String) : LoopKind → Action Unit
  | .times count => counted world lines count.toNat 1
  | .guarded guard => guarded world guard lines world.settings.maxPasses 1

/-- The end of a loop replays the body collected. The loop is closed afterwards, whether a line
failed or not. -/
def close (world : World) : Action Unit := do
  match ← takeLoop with
  | .collecting kind lines =>
      setLoop (.replaying kind)
      try passes world lines kind finally setLoop .closed
      say "Loop finished!"
  | other =>
      setLoop other
      throw .noActiveLoop

end Replay

namespace State

def execute (world : World) (line : String) : Action Unit :=
  Sentence.execute world (Replay.close world) line

/-- Takes the next line of a script: while a loop is collected, every line but its end is kept for
its body. -/
def feed (world : World) (line : String) : Action Unit := do
  let text := Text.trim line
  if text.isEmpty then return
  match (← get).loop with
  | .collecting kind lines =>
      if endsLoop text then execute world text
      else Action.setLoop (.collecting kind (lines ++ [text]))
  | _ => execute world text

def feedAll (world : World) (lines : List String) : Action Unit := lines.forM (feed world)

def record (x : Action Unit) : Action Unit :=
  try x
  catch e =>
    Action.say ("Error: " ++ e.message)
    throw e

end State

end SentenceScript
