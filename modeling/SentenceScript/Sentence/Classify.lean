import SentenceScript.Text.Rows
import SentenceScript.Decimal.Basic
import SentenceScript.Sentence.Shape

namespace SentenceScript

open Text

structure Sentence where
  line : String
  command : Command

namespace Sentence

def number? (s : List Char) : Option Float := (Decimal.read? s).map Decimal.toFloat

def count? (s : List Char) : Option UInt64 :=
  if h : Decimal.valueOf s < UInt64.size then some (UInt64.ofNatLT (Decimal.valueOf s) h) else none

def comparison? (s : List Char) : Option Comparison := Comparison.ofPhrase? (String.ofList s)

def conditional? (subject phrase : List Char) (operand : Option Operand)
    (yes : List Char) (no : Option (List Char)) : Option Command := do
  let comparison ← comparison? phrase
  let operand ← operand
  return .conditional ⟨String.ofList subject, comparison, operand⟩ (String.ofList yes)
    (no.map String.ofList)

/-- The command with these captures, unless a count or a phrase names none. -/
def build? : Shape → List (List Char) → Option Command
  | .createNumber, [name, value] => (number? value).map (.createNumber (String.ofList name))
  | .createText, [name, value] => some (.createText (String.ofList name) (String.ofList value))
  | .add, [amount, target] => (number? amount).map (.add · (String.ofList target))
  | .subtract, [amount, target] => (number? amount).map (.subtract · (String.ofList target))
  | .multiply, [target, factor] => (number? factor).map (.multiply (String.ofList target))
  | .divide, [target, divisor] => (number? divisor).map (.divide (String.ofList target))
  | .createTask, [name, status] => some (.createTask (String.ofList name) (String.ofList status))
  | .completeTask, [name] => some (.completeTask (String.ofList name))
  | .showTasks, _ => some .showTasks
  | .showTasksWith, [status] => some (.showTasksWith (String.ofList status))
  | .ifNumber, [subject, phrase, operand, yes] =>
      conditional? subject phrase ((number? operand).map .literal) yes none
  | .ifNumber, [subject, phrase, operand, yes, no] =>
      conditional? subject phrase ((number? operand).map .literal) yes (some no)
  | .ifVariable, [subject, phrase, operand, yes] =>
      conditional? subject phrase (some (.named (String.ofList operand))) yes none
  | .ifVariable, [subject, phrase, operand, yes, no] =>
      conditional? subject phrase (some (.named (String.ofList operand))) yes (some no)
  | .repeatLoop, [times] => (count? times).map .repeatLoop
  | .whileLoop, [subject, phrase, threshold] => do
      let comparison ← comparison? phrase
      let threshold ← number? threshold
      return .whileLoop (String.ofList subject) comparison (String.ofList phrase) threshold
  | .endLoop, _ => some .endLoop
  | .connectApi, [endpoint] => some (.connectApi (String.ofList endpoint))
  | .search, [query, key] => some (.search (String.ofList query) (String.ofList key))
  | .getResponse, _ => some .getResponse
  | .connectServer, [url, protocol] =>
      some (.connectServer (String.ofList url) (String.ofList protocol))
  | .disconnectServer, [url] => some (.disconnectServer (String.ofList url))
  | .sendVariable, [model, message] =>
      some (.sendMessage (String.ofList model) none (.named (String.ofList message)))
  | .sendVariable, [model, system, message] =>
      some (.sendMessage (String.ofList model) (some (String.ofList system))
        (.named (String.ofList message)))
  | .sendText, [model, message] =>
      some (.sendMessage (String.ofList model) none (.literal (String.ofList message)))
  | .sendText, [model, system, message] =>
      some (.sendMessage (String.ofList model) (some (String.ofList system))
        (.literal (String.ofList message)))
  | .awaitReply, _ => some .awaitReply
  | .storeReply, [target] => some (.storeReply (String.ofList target))
  | .measureLength, [source, target] =>
      some (.measureLength (String.ofList source) (String.ofList target))
  | .showVariable, [name] => some (.showVariable (String.ofList name))
  | .showText, [text] => some (.showText (String.ofList text))
  | .showResponse, _ => some .showResponse
  | .comment, [text] => some (.comment (String.ofList text))
  | _, _ => none

/-- The first shape of a catalog that the line has decides, even if its captures name no command. -/
def commandIn (catalog : List Shape) (line : List Char) : Command :=
  match catalog.findSome? fun shape => (shape.read? line).map fun captures => (shape, captures) with
  | some (shape, captures) => (build? shape captures).getD .unknown
  | none => .unknown

def classify (line : String) : Sentence :=
  ⟨trim line, commandIn Shape.catalog (strip line.toList)⟩

def classifyScript (source : String) : List Sentence := (scriptLines source).map classify

end Sentence

end SentenceScript
