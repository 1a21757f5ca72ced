import SentenceScript.State.Basic
import SentenceScript.Service.Basic

namespace SentenceScript

inductive MissingStep where
  | endpoint
  | responseToGet
  | responseToShow
  | request
  | reply
  | server (url : String)
  deriving DecidableEq, Repr

def MissingStep.message : MissingStep → String
  | endpoint => "Connect to an API first before sending searches!"
  | responseToGet => "No API response available. Send a search first!"
  | responseToShow => "No API response to show. Send a search first!"
  | request => "No pending LLM request. Send a message first!"
  | reply => "No LLM response available. Send a message and wait for response first!"
  | server url => "No active connection to MCP server at " ++ url

inductive Failure where
  | undefinedVariable (name : String)
  | divisionByZero
  | taskNotFound (name : String)
  | loopOverrun (limit : Nat)
  | noActiveLoop
  | loopAlreadyOpen (kind : String)
  | missing (step : MissingStep)
  | unrecognized (line : String)
  | service (error : ServiceError)
  deriving DecidableEq, Repr

def Failure.message : Failure → String
  | undefinedVariable name => "Variable " ++ name ++ " doesn't exist yet. Create it first!"
  | divisionByZero => "Cannot divide by zero! That would break the universe."
  | taskNotFound name => "Task \"" ++ name ++ "\" not found. Check the name and try again."
  | loopOverrun limit =>
      "While loop ran too many times! Check your condition. (limit: " ++ toString limit ++
        " iterations)"
  | noActiveLoop => "Not in a loop! Use 'repeat' or 'while' first."
  | loopAlreadyOpen kind =>
      "Already inside a " ++ kind ++
        " loop. Finish it with 'end' before starting another loop."
  | missing step => step.message
  | unrecognized line => "I don't understand \"" ++ line ++ "\". Could you rephrase that?"
  | service error => error.service ++ " service failed: " ++ error.message

def State.lookup (s : State) (name : String) : Except Failure Value :=
  (s.bindings.get? name).elim (.error (.undefinedVariable name)) .ok

/-- A piece of a run: it reads and changes the state step by step, and may fail at any step. What it
changed before it failed stays changed. -/
abbrev Action (α : Type) := EStateM Failure State α

abbrev Outcome := EStateM.Result Failure State Unit

namespace Outcome

def state : Outcome → State
  | .ok _ s => s
  | .error _ s => s

def failure : Outcome → Option Failure
  | .ok _ _ => none
  | .error e _ => some e

end Outcome

namespace Action

def say (line : String) : Action Unit := modify (·.say line)

def sayAll (lines : List String) : Action Unit := modify (·.sayAll lines)

def assign (name : String) (value : Value) : Action Unit := modify (·.assign name value)

def setLoop (loop : Loop) : Action Unit := modify ({ · with loop })

/-- The loop as it stood. None is open afterwards. -/
def takeLoop : Action Loop := modifyGet fun s => (s.loop, { s with loop := .closed })

def ofExcept {α : Type} : Except Failure α → Action α
  | .ok a => pure a
  | .error e => throw e

def lookup (name : String) : Action Value := do ofExcept ((← get).lookup name)

def demand {α : Type} (step : MissingStep) (part : State → Option α) : Action α := do
  match part (← get) with
  | some a => return a
  | none => throw (.missing step)

def ask {α : Type} (answer : Except ServiceError α) : Action α := ofExcept (answer.mapError .service)

end Action

end SentenceScript
