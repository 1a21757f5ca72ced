import SentenceScript.Json.Values
import SentenceScript.Snapshot.Basic

namespace SentenceScript

open Json

namespace Task

def toJson (t : Task) : Json := .object [("name", .text t.name), ("status", .text t.status)]

def fields : List (Record.Field Task) :=
  [⟨"name", false, fun s t => do return { t with name := ← s.readText }⟩,
   ⟨"status", false, fun s t => do return { t with status := ← s.readText }⟩]

def read : Scan → Except Fault Task := Record.read fields ⟨"", ""⟩

end Task

namespace Comparison

def jsonNames : List (String × Comparison) :=
  [("above", above), ("below", below), ("equal_to", equalTo)]

def jsonName : Comparison → String
  | above => "above"
  | below => "below"
  | equalTo => "equal_to"

end Comparison

namespace Guard

def toJson (g : Guard) : Json :=
  .object [("variable", .text g.subject), ("comparator", .text g.comparison.jsonName),
    ("threshold", .number g.threshold)]

def fields : List (Record.Field Guard) :=
  [⟨"variable", false, fun s g => do return { g with subject := ← s.readText }⟩,
   ⟨"comparator", false, fun s g => do
      return { g with comparison := ← s.readChoice Comparison.jsonNames }⟩,
   ⟨"threshold", false, fun s g => do return { g with threshold := ← s.readFloat }⟩]

def read : Scan → Except Fault Guard := Record.read fields ⟨"", .above, 0⟩

end Guard

namespace LoopView

def toJson (v : LoopView) : Json :=
  .object [("inLoop", .bool v.inLoop), ("loopType", .ofOption .text v.loopType),
    ("bufferedLines", .array (v.bufferedLines.map .text)),
    ("repeatCount", .ofOption (fun n => .count n.toNat) v.repeatCount),
    ("whileCondition", .ofOption Guard.toJson v.whileCondition)]

def fields : List (Record.Field LoopView) :=
  [⟨"inLoop", false, fun s v => do return { v with inLoop := ← s.readBool }⟩,
   ⟨"loopType", true, fun s v => do return { v with loopType := ← s.readOption Scan.readText }⟩,
   ⟨"bufferedLines", false, fun s v => do
      return { v with bufferedLines := ← s.readList Scan.readText }⟩,
   ⟨"repeatCount", true, fun s v => do
      let count ← s.readOption (Scan.readNatural UInt64.size)
      return { v with repeatCount := count.map .ofNat }⟩,
   ⟨"whileCondition", true, fun s v => do
      return { v with whileCondition := ← s.readOption Guard.read }⟩]

def read : Scan → Except Fault LoopView := Record.read fields {}

end LoopView

namespace Snapshot

def toJson (v : Snapshot) : Json :=
  .object [("variables", .object (v.bindings.map fun (name, value) => (name, value.toJson))),
    ("tasks", .array (v.tasks.map Task.toJson)), ("loopState", v.loop.toJson),
    ("apiEndpoint", .ofOption .text v.endpoint),
    ("apiResponse", .ofOption SearchResponse.toJson v.response),
    ("mcpServers", .object (v.servers.entries.map fun (key, c) => (key, c.toJson))),
    ("pendingLlmRequest", .ofOption ModelRequest.toJson v.request),
    ("llmResponse", .ofOption ModelReply.toJson v.reply),
    ("output", .array (v.log.map .text))]

/-- Of several members with one key, the place of the first and the value of the last count. A
variable lies in two objects, the snapshot and its variables. -/
def fields : List (Record.Field Snapshot) :=
  [⟨"variables", false, fun s v => do
      return { v with bindings := .ofPairs (← s.readPairs (Value.read (Value.deepest - 2))) }⟩,
   ⟨"tasks", false, fun s v => do return { v with tasks := ← s.readList Task.read }⟩,
   ⟨"loopState", false, fun s v => do return { v with loop := ← LoopView.read s }⟩,
   ⟨"apiEndpoint", true, fun s v => do return { v with endpoint := ← s.readOption Scan.readText }⟩,
   ⟨"apiResponse", true, fun s v => do
      return { v with response := ← s.readOption SearchResponse.read }⟩,
   ⟨"mcpServers", false, fun s v => do
      return { v with servers := .ofPairs (← s.readPairs Connection.read) }⟩,
   ⟨"pendingLlmRequest", true, fun s v => do
      return { v with request := ← s.readOption ModelRequest.read }⟩,
   ⟨"llmResponse", true, fun s v => do return { v with reply := ← s.readOption ModelReply.read }⟩,
   ⟨"output", false, fun s v => do return { v with log := ← s.readList Scan.readText }⟩]

def read : Scan → Except Fault Snapshot := Record.read fields {}

def compact (v : Snapshot) : String := v.toJson.compact

def pretty (v : Snapshot) : String := v.toJson.pretty

def ofText (s : String) : Except Fault Snapshot := decode read s

end Snapshot

end SentenceScript
