import SentenceScript.Json.Values
import SentenceScript.Settings.Document
import SentenceScript.Sentence.Classify
import SentenceScript.Run.Action

namespace SentenceScript

structure World where
  settings : Settings
  services : Services

def preview (s : String) (limit : Nat) : String :=
  if s.length ≤ limit then s else String.ofList (s.toList.take limit) ++ "..."

namespace Action

def createNumber (name : String) (value : Float) : Action Unit := do
  assign name (.number value)
  say ("Created number " ++ name ++ " with value " ++ numberText value)

def createText (name value : String) : Action Unit := do
  assign name (.text value)
  say ("Created string " ++ name ++ " with value \"" ++ value ++ "\"")

def update (target : String) (f : Float → Float) (done : String) : Action Unit := do
  let value := f (← lookup target).toNumber
  assign target (.number value)
  say (done ++ ". New value: " ++ numberText value)

/-- A divisor of zero is refused before the variable is looked up. -/
def divide (target : String) (divisor : Float) : Action Unit := do
  if divisor == 0 then throw .divisionByZero
  update target (· / divisor) ("Divided " ++ target ++ " by " ++ numberText divisor)

def createTask (name status : String) : Action Unit := do
  modify fun s => { s with tasks := s.tasks ++ [Task.mk name status] }
  say ("Created task: \"" ++ name ++ "\" with status \"" ++ status ++ "\"")

def completeTask (name : String) : Action Unit := do
  match Task.setStatus? (← get).tasks name Task.completeStatus with
  | some tasks =>
      modify ({ · with tasks })
      say ("Marked task \"" ++ name ++ "\" as complete")
  | none => throw (.taskNotFound name)

def showTasks : Action Unit := do
  let tasks := (← get).tasks
  if tasks.isEmpty then say "No tasks yet. Create some tasks to get started!"
  else
    say "All tasks:"
    sayAll (tasks.map fun t => "  • " ++ t.name ++ " (" ++ t.status ++ ")")

def showTasksWith (status : String) : Action Unit := do
  let found := Task.withStatus (← get).tasks status
  if found.isEmpty then say ("No tasks with status \"" ++ status ++ "\"")
  else
    say ("Tasks with status \"" ++ status ++ "\":")
    sayAll (found.map fun t => "  • " ++ t.name)

def openLoop (kind : LoopKind) (announcement : String) : Action Unit := do
  match (← get).loop.kind? with
  | some active => throw (.loopAlreadyOpen active.name)
  | none =>
      setLoop (.collecting kind [])
      say announcement

def openRepeat (times : UInt64) : Action Unit :=
  openLoop (.times times) ("Starting to repeat " ++ toString times.toNat ++ " times...")

def openWhile (guard : Guard) (phrase : String) : Action Unit :=
  openLoop (.guarded guard)
    ("Starting while loop: while " ++ guard.subject ++ " is " ++ phrase ++ " " ++
      numberText guard.threshold ++ "...")

def connectApi (endpoint : String) : Action Unit := do
  modify ({ · with endpoint := some endpoint })
  say ("Connected to API at " ++ endpoint)

def search (services : Services) (query key : String) : Action Unit := do
  let endpoint ← demand .endpoint (·.endpoint)
  let response ← ask (services.search endpoint query key)
  modify ({ · with response := some response })
  say ("Sent search for \"" ++ query ++ "\" using key \"" ++ key ++ "\"")

def getResponse : Action Unit := do
  let _ ← demand .responseToGet (·.response)
  say "Got the API response successfully"

def showResponse : Action Unit := do
  let response ← demand .responseToShow (·.response)
  say "API Response:"
  say response.toJson.pretty

def connectServer (services : Services) (url protocol : String) : Action Unit := do
  let connection ← ask (services.connect url protocol)
  modify fun s => { s with servers := s.servers.insert url connection }
  say ("Connected to MCP server at " ++ url ++ " using " ++ protocol ++ " protocol")

def disconnectServer (services : Services) (url : String) : Action Unit := do
  let _ ← demand (.server url) (·.servers.get? url)
  ask (services.disconnect url)
  modify fun s => { s with servers := s.servers.erase url }
  say ("Disconnected from MCP server at " ++ url)

def messageText : Message → Action String
  | .literal text => return text
  | .named name => return (← lookup name).render

def promptText : Option String → Action (Option String)
  | none => return none
  | some name => return some (← lookup name).render

/-- The message is looked up before the system prompt. An empty prompt is sent but not shown. -/
def sendMessage (world : World) (model : String) (system : Option String) (message : Message) :
    Action Unit := do
  let userMessage ← messageText message
  let systemPrompt ← promptText system
  let limit := world.settings.previewLength
  modify ({ · with request := some ⟨model, systemPrompt, userMessage, world.services.now⟩ })
  say ("Sending message to " ++ model ++ "...")
  sayAll ((systemPrompt.filter (!·.isEmpty)).toList.map fun p => "System: " ++ preview p limit)
  say ("User: " ++ preview userMessage limit)

def awaitReply (services : Services) : Action Unit := do
  let request ← demand .request (·.request)
  let response ← ask (services.complete request)
  modify ({ · with reply := some ⟨request.model, response, services.now, request⟩ })
  say "Received response from LLM"

def storeReply (target : String) : Action Unit := do
  let reply ← demand .reply (·.reply)
  assign target (.text reply.response)
  say ("Stored LLM response in variable \"" ++ target ++ "\"")

def measureLength (source target : String) : Action Unit := do
  let size := (← lookup source).size
  assign target (.number (Decimal.toFloat ⟨false, size, 0⟩))
  say ("Measured length of " ++ source ++ ": " ++ toString size ++ " characters")

def showVariable (name : String) : Action Unit := do
  say (name ++ ": " ++ (← lookup name).render)

def operand : Operand → Action Value
  | .literal n => return .number n
  | .named name => lookup name

/-- The subject is looked up before the operand. -/
def test (c : Condition) : Action Bool := do
  let left ← lookup c.subject
  let right ← operand c.operand
  return c.comparison.holds left right

end Action

open SentenceScript.Action in
/-- The effect of a sentence that is no conditional, given what the end of a loop does. -/
def Sentence.act (world : World) (finish : Action Unit) (sentence : Sentence) : Action Unit :=
  match sentence.command with
  | .createNumber name value => createNumber name value
  | .createText name value => createText name value
  | .add amount target =>
      update target (· + amount) ("Added " ++ numberText amount ++ " to " ++ target)
  | .subtract amount target =>
      update target (· - amount) ("Subtracted " ++ numberText amount ++ " from " ++ target)
  | .multiply target factor =>
      update target (· * factor) ("Multiplied " ++ target ++ " by " ++ numberText factor)
  | .divide target divisor => divide target divisor
  | .createTask name status => createTask name status
  | .completeTask name => completeTask name
  | .showTasks => showTasks
  | .showTasksWith status => showTasksWith status
  | .conditional .. => pure ()
  | .repeatLoop times => openRepeat times
  | .whileLoop subject comparison phrase threshold =>
      openWhile ⟨subject, comparison, threshold⟩ phrase
  | .endLoop => finish
  | .connectApi endpoint => connectApi endpoint
  | .search query key => search world.services query key
  | .getResponse => getResponse
  | .connectServer url protocol => connectServer world.services url protocol
  | .disconnectServer url => disconnectServer world.services url
  | .sendMessage model system message => sendMessage world model system message
  | .awaitReply => awaitReply world.services
  | .storeReply target => storeReply target
  | .measureLength source target => measureLength source target
  | .showVariable name => showVariable name
  | .showText text => say text
  | .showResponse => showResponse
  | .comment _ => pure ()
  | .unknown => throw (.unrecognized sentence.line)

end SentenceScript
