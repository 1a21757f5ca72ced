import SentenceScript.Text.Lowercase
import SentenceScript.Text.Search
import SentenceScript.Service.Basic

namespace SentenceScript.Canned

open Text

def benefitsReply : String :=
  "\n".intercalate
    ["Natural language programming has a few clear benefits:",
     "",
     "1. Accessibility: people who never learned a programming language can read and write it",
     "2. Short learning curve: there are no symbols or punctuation rules to memorize",
     "3. Readability: the program explains itself to anyone reviewing it",
     "4. Shared vocabulary: domain experts and developers discuss the same text",
     "",
     "Writing 'repeat 10 times' says exactly what a counted for-loop means."]

def accessibilityReply : String :=
  "\n".intercalate
    ["An accessibility example.",
     "",
     "Conventional code:",
     "    if (age >= 18) \x7b print(\"Access granted\") \x7d else \x7b print(\"Access " ++
      "denied\") \x7d",
     "",
     "Sentence form:",
     "    if age is above 17, show \"Access granted\" otherwise show \"Access denied\"",
     "",
     "A reviewer or analyst can check the sentence form without knowing any syntax."]

def comparisonReply : String :=
  "\n".intercalate
    ["Natural language programming compared with conventional syntax:",
     "",
     "Conventional: dense symbols, rules to memorize, a steep start for beginners.",
     "Natural: ordinary words, reads like instructions, self-documenting.",
     "",
     "Conventional: while (x < 100) \x7b x += 10; \x7d",
     "Natural: while x is below 100 / add 10 to x / end"]

def genericReply (model message : String) : String :=
  "I understand you're asking about \"" ++ message ++ "\". This is a mock response from the " ++
    model ++ " model via MCP. A real integration would forward the request to a live model."

/-- The reply to a message is chosen by the first of three topics it mentions in any case. -/
def topics : List (String × String) :=
  [("natural language programming", benefitsReply), ("accessibility", accessibilityReply),
   ("compare", comparisonReply)]

def reply (model message : String) : String :=
  let lowered := message.toList.flatMap lowercase
  match topics.find? fun (topic, _) => occursIn topic.toList lowered with
  | some (_, text) => text
  | none => genericReply model message

def searchResponse (query : String) : SearchResponse :=
  ⟨query,
    [⟨1, "Result for \"" ++ query ++ "\"", "This is a sample result"⟩,
     ⟨2, "Another result about \"" ++ query ++ "\"", "More relevant information"⟩]⟩

def services (now : Instant) : Services where
  search _ query _ := .ok (searchResponse query)
  connect url protocol := .ok ⟨url, protocol, true, now⟩
  disconnect _ := .ok ()
  complete request := .ok (reply request.model request.userMessage)
  now := now

end SentenceScript.Canned
