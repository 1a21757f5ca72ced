import SentenceScript.Text.Rows
import SentenceScript.Text.Lowercase
import SentenceScript.State.Basic

namespace SentenceScript.Speech

open Text

def ofVariable : String × Value → String
  | (name, .number n) => "Create a number called " ++ name ++ " with value " ++ numberText n ++ "."
  | (name, .text s) => "Create a string called " ++ name ++ " with value \"" ++ s ++ "\"."

def ofTask (t : Task) : String :=
  "Create a task called \"" ++ t.name ++ "\" with status \"" ++ t.status ++ "\"."

def ofEndpoint (url : String) : String := "Connect to the API at \"" ++ url ++ "\"."

def ofState (s : State) : String :=
  " ".intercalate
    (s.bindings.map ofVariable ++ s.tasks.map ofTask ++ s.endpoint.toList.map ofEndpoint)

def startsBlank : List Char → Bool
  | [] => false
  | c :: _ => isBlank c

/-- Cuts a text at each period before a blank, and drops the blanks there. -/
def cut : (atStart : Bool) → List Char → List (List Char)
  | _, [] => [[]]
  | atStart, c :: r =>
      if atStart && isBlank c then cut true r
      else if c == '.' && startsBlank r then [] :: cut true r
      else
        match cut false r with
        | [] => [[c]]
        | piece :: pieces => (c :: piece) :: pieces

def dropPeriod (s : List Char) : List Char :=
  if s.getLast? = some '.' then s.dropLast else s

def lowerUnquoted : (quoted : Bool) → List Char → List Char
  | _, [] => []
  | quoted, c :: r =>
      if c == '"' then c :: lowerUnquoted (!quoted) r
      else if quoted then c :: lowerUnquoted quoted r
      else lowercase c ++ lowerUnquoted quoted r

def toLines (text : String) : String :=
  let lines := ((cut false text.toList).map fun s => strip (dropPeriod (strip s))).filter (· ≠ [])
  "\n".intercalate (lines.map fun s => String.ofList (lowerUnquoted false s))

end SentenceScript.Speech
