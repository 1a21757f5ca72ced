import SentenceScript.Sentence.Form

namespace SentenceScript

inductive Shape where
  | createNumber
  | createText
  | add
  | subtract
  | multiply
  | divide
  | createTask
  | completeTask
  | showTasks
  | showTasksWith
  | ifNumber
  | ifVariable
  | repeatLoop
  | whileLoop
  | endLoop
  | connectApi
  | search
  | getResponse
  | connectServer
  | disconnectServer
  | sendVariable
  | sendText
  | awaitReply
  | storeReply
  | measureLength
  | showVariable
  | showText
  | showResponse
  | comment
  deriving DecidableEq, Repr

namespace Shape

open Piece Slot

def catalog : List Shape :=
  [createNumber, createText, add, subtract, multiply, divide, createTask, completeTask, showTasks,
   showTasksWith, ifNumber, ifVariable, repeatLoop, whileLoop, endLoop, connectApi, search,
   getResponse, connectServer, disconnectServer, sendVariable, sendText, awaitReply, storeReply,
   measureLength, showVariable, showText, showResponse, comment]

def text (w : String) : Piece := words [w]

def optional (w : String) : Piece := words [w, ""]

def gap (kind : Slot) : Piece := Piece.slot kind

def condition (operand : Slot) : Form :=
  [gap name, text " is ", gap phrase, text " ", gap operand]

def sending (message : Slot) : List Form :=
  [[text "send message to model ", gap quoted, text " with system prompt ", gap name,
    text " and user message ", gap message],
   [text "send message to model ", gap quoted, text " with user message ", gap message]]

def forms : Shape → List Form
  | createNumber =>
      [[text "create ", optional "a ", text "number called ", gap name, text " with value ",
        gap number]]
  | createText =>
      [[text "create ", optional "a ", words ["string", "text"], text " called ", gap name,
        text " with value ", gap quoted]]
  | add => [[text "add ", gap number, text " to ", gap name]]
  | subtract => [[text "subtract ", gap number, text " from ", gap name]]
  | multiply => [[text "multiply ", gap name, text " by ", gap number]]
  | divide => [[text "divide ", gap name, text " by ", gap number]]
  | createTask =>
      [[text "create ", optional "a ", text "task called ", gap quoted, text " with status ",
        gap quoted]]
  | completeTask =>
      [[text "mark task ", gap quoted, text " as ", words ["complete", "done", "finished"]]]
  | showTasks => [[text "show ", optional "all ", text "tasks"]]
  | showTasksWith => [[text "show tasks where status is ", gap quoted]]
  | ifNumber => [text "if " :: condition number ++ [text ", ", gap clauses]]
  | ifVariable => [text "if " :: condition name ++ [text ", ", gap clauses]]
  | repeatLoop => [[text "repeat ", gap count, words [" times", " time"]]]
  | whileLoop => [text "while " :: condition number]
  | endLoop => [[words ["end", "done"]]]
  | connectApi => [[text "connect to ", optional "the ", text "api at ", gap quoted]]
  | search =>
      [[text "send ", optional "a ", text "search for ", gap quoted, text " using ",
        optional "the ", text "key ", gap quoted]]
  | getResponse => [[text "get ", optional "the ", text "response"]]
  | connectServer =>
      [[text "connect to mcp server at ", gap quoted, text " with protocol ", gap quoted]]
  | disconnectServer => [[text "disconnect from mcp server ", gap quoted]]
  | sendVariable => sending name
  | sendText => sending quoted
  | awaitReply => [[text "wait for model response"]]
  | storeReply => [[text "get ", optional "the ", text "response as ", gap quoted]]
  | measureLength =>
      [[text "measure length of ", gap name, text " and store in ", gap name]]
  | showVariable => [[text "show ", gap name]]
  | showText => [[text "show ", gap quoted]]
  | showResponse => [[text "show ", optional "the ", text "response"]]
  | comment => [[text "note:", gap remark]]

def read? (shape : Shape) (line : List Char) : Option (List (List Char)) :=
  shape.forms.findSome? (Form.read? · line)

def fits (shape : Shape) (line : String) : Bool := (shape.read? line.toList).isSome

end Shape

/-- Whether a line without outer blanks closes a loop. -/
def endsLoop (line : String) : Bool :=
  let word := line.toList.map Char.toLower
  word == "end".toList || word == "done".toList

end SentenceScript
