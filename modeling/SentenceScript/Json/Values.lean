import SentenceScript.Service.Basic
import SentenceScript.Json.Read
import SentenceScript.Value

namespace SentenceScript

open Json

namespace Instant

def toJson (t : Instant) : Json := .text (String.ofList t.toChars)

def read (s : Scan) : Except Fault Instant := do
  (ofChars? (← s.readText).toList).elim (.error .mismatch) .ok

end Instant

namespace SearchResult

def toJson (r : SearchResult) : Json :=
  .object [("id", .count r.id.toNat), ("title", .text r.title),
    ("description", .text r.description)]

def fields : List (Record.Field SearchResult) :=
  [⟨"id", false, fun s r => do return { r with id := .ofNat (← s.readNatural UInt32.size) }⟩,
   ⟨"title", false, fun s r => do return { r with title := ← s.readText }⟩,
   ⟨"description", false, fun s r => do return { r with description := ← s.readText }⟩]

def read : Scan → Except Fault SearchResult := Record.read fields ⟨0, "", ""⟩

end SearchResult

namespace SearchResponse

def toJson (r : SearchResponse) : Json :=
  .object [("query", .text r.query), ("results", .array (r.results.map SearchResult.toJson))]

def fields : List (Record.Field SearchResponse) :=
  [⟨"query", false, fun s r => do return { r with query := ← s.readText }⟩,
   ⟨"results", false, fun s r => do return { r with results := ← s.readList SearchResult.read }⟩]

def read : Scan → Except Fault SearchResponse := Record.read fields ⟨"", []⟩

end SearchResponse

namespace Connection

def toJson (c : Connection) : Json :=
  .object [("url", .text c.url), ("protocol", .text c.protocol), ("connected", .bool c.connected),
    ("connectedAt", c.connectedAt.toJson)]

def fields : List (Record.Field Connection) :=
  [⟨"url", false, fun s c => do return { c with url := ← s.readText }⟩,
   ⟨"protocol", false, fun s c => do return { c with protocol := ← s.readText }⟩,
   ⟨"connected", false, fun s c => do return { c with connected := ← s.readBool }⟩,
   ⟨"connectedAt", false, fun s c => do return { c with connectedAt := ← Instant.read s }⟩]

def read : Scan → Except Fault Connection := Record.read fields ⟨"", "", false, .epoch⟩

end Connection

namespace ModelRequest

def toJson (r : ModelRequest) : Json :=
  .object [("model", .text r.model), ("systemPrompt", .ofOption .text r.systemPrompt),
    ("userMessage", .text r.userMessage), ("timestamp", r.timestamp.toJson)]

def fields : List (Record.Field ModelRequest) :=
  [⟨"model", false, fun s r => do return { r with model := ← s.readText }⟩,
   ⟨"systemPrompt", true, fun s r => do
      return { r with systemPrompt := ← s.readOption Scan.readText }⟩,
   ⟨"userMessage", false, fun s r => do return { r with userMessage := ← s.readText }⟩,
   ⟨"timestamp", false, fun s r => do return { r with timestamp := ← Instant.read s }⟩]

def blank : ModelRequest := ⟨"", none, "", .epoch⟩

def read : Scan → Except Fault ModelRequest := Record.read fields blank

end ModelRequest

namespace ModelReply

def toJson (r : ModelReply) : Json :=
  .object [("model", .text r.model), ("response", .text r.response),
    ("timestamp", r.timestamp.toJson), ("request", r.request.toJson)]

def fields : List (Record.Field ModelReply) :=
  [⟨"model", false, fun s r => do return { r with model := ← s.readText }⟩,
   ⟨"response", false, fun s r => do return { r with response := ← s.readText }⟩,
   ⟨"timestamp", false, fun s r => do return { r with timestamp := ← Instant.read s }⟩,
   ⟨"request", false, fun s r => do return { r with request := ← ModelRequest.read s }⟩]

def read : Scan → Except Fault ModelReply := Record.read fields ⟨"", "", .epoch, .blank⟩

end ModelReply

namespace Value

def nonFinite : List (String × Float) :=
  [("NaN", nan), ("Infinity", infinity), ("-Infinity", -infinity)]

/-- A finite number is a JSON number and a text a JSON string. Any other number is an object with
its name, so that a text of the same spelling stays a text. -/
def toJson : Value → Json
  | text s => .text s
  | number n => if n.isFinite then .number n else .object [("number", .text (numberText n))]

def nonFinite? : Json → Option Float
  | .text name => nonFinite.lookup name
  | .object [(name, .null)] => nonFinite.lookup name
  | _ => none

def ofJson? : Json → Option Value
  | .count n => some (.number (Numeral.natural n).toFloat)
  | .number x => some (.number x)
  | .text s => some (.text s)
  | .object members =>
      match members.filter (·.1 == "number") with
      | [(_, j)] => (nonFinite? j).map .number
      | _ => none
  | _ => none

def read (room : Nat) (s : Scan) : Except Fault Value := do
  (ofJson? (← s.toJson room)).elim (.error .mismatch) .ok

def deepest : Nat := 128

def ofText (s : String) : Except Fault Value := decode (read deepest) s

end Value

end SentenceScript
