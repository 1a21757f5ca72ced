namespace SentenceScript

inductive Comparison where
  | above
  | below
  | equalTo
  deriving DecidableEq, Repr

namespace Comparison

def phrases : List (String × Comparison) :=
  [("above", above), ("below", below), ("equal to", equalTo), ("greater than", above),
   ("less than", below)]

/-- The comparison that a phrase names. Only ASCII capitals count as other spellings. -/
def ofPhrase? (phrase : String) : Option Comparison :=
  phrases.lookup (String.ofList (phrase.toList.map Char.toLower))

def phrase : Comparison → String
  | above => "above"
  | below => "below"
  | equalTo => "equal to"

end Comparison

inductive Operand where
  | literal (value : Float)
  | named (name : String)

structure Condition where
  subject : String
  comparison : Comparison
  operand : Operand

inductive Message where
  | literal (text : String)
  | named (name : String)

inductive Command where
  | createNumber (name : String) (value : Float)
  | createText (name value : String)
  | add (amount : Float) (target : String)
  | subtract (amount : Float) (target : String)
  | multiply (target : String) (factor : Float)
  | divide (target : String) (divisor : Float)
  | createTask (name status : String)
  | completeTask (name : String)
  | showTasks
  | showTasksWith (status : String)
  | conditional (condition : Condition) (yes : String) (no : Option String)
  | repeatLoop (times : UInt64)
  | whileLoop (subject : String) (comparison : Comparison) (phrase : String) (threshold : Float)
  | endLoop
  | connectApi (endpoint : String)
  | search (query key : String)
  | getResponse
  | connectServer (url protocol : String)
  | disconnectServer (url : String)
  | sendMessage (model : String) (systemPrompt : Option String) (message : Message)
  | awaitReply
  | storeReply (target : String)
  | measureLength (source target : String)
  | showVariable (name : String)
  | showText (text : String)
  | showResponse
  | comment (text : String)
  | unknown

def Command.opensLoop : Command → Bool
  | repeatLoop _ | whileLoop .. => true
  | _ => false

end SentenceScript
