import SentenceScript.Instant

namespace SentenceScript

structure SearchResult where
  id : UInt32
  title : String
  description : String
  deriving DecidableEq, Repr

structure SearchResponse where
  query : String
  results : List SearchResult
  deriving DecidableEq, Repr

structure Connection where
  url : String
  protocol : String
  connected : Bool
  connectedAt : Instant
  deriving DecidableEq, Repr

structure ModelRequest where
  model : String
  systemPrompt : Option String
  userMessage : String
  timestamp : Instant
  deriving DecidableEq, Repr

structure ModelReply where
  model : String
  response : String
  timestamp : Instant
  request : ModelRequest
  deriving DecidableEq, Repr

structure ServiceError where
  service : String
  message : String
  deriving DecidableEq, Repr

/-- What a script can ask of the world outside. An answer depends on nothing but what is asked, and
all that happens in one run happens at the time `now`, so two runs are compared under the same clock. -/
structure Services where
  search : (endpoint query key : String) → Except ServiceError SearchResponse
  connect : (url protocol : String) → Except ServiceError Connection
  disconnect : (url : String) → Except ServiceError Unit
  complete : ModelRequest → Except ServiceError String
  now : Instant

inductive ServiceCall where
  | search
  | connect
  | disconnect
  | complete
  deriving DecidableEq, Repr

def ServiceCall.service : ServiceCall → String
  | search => "search"
  | connect => "mcp"
  | disconnect => "disconnect"
  | complete => "model"

def Services.failing (services : Services) (calls : List ServiceCall) (message : String) :
    Services :=
  let guarded {α : Type} (call : ServiceCall) (answer : Except ServiceError α) :=
    if call ∈ calls then .error ⟨call.service, message⟩ else answer
  { search endpoint query key := guarded .search (services.search endpoint query key)
    connect url protocol := guarded .connect (services.connect url protocol)
    disconnect url := guarded .disconnect (services.disconnect url)
    complete request := guarded .complete (services.complete request)
    now := services.now }

end SentenceScript
