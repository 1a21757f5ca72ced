import SentenceScript.Decimal.Basic
import SentenceScript.Decimal.Shortest
import SentenceScript.Instant
import SentenceScript.Json.Basic
import SentenceScript.Json.Read
import SentenceScript.Json.Scan
import SentenceScript.Json.Values
import SentenceScript.Proofs.Action
import SentenceScript.Proofs.Atomicity
import SentenceScript.Proofs.Binary64
import SentenceScript.Proofs.Catalog
import SentenceScript.Proofs.Coercion
import SentenceScript.Proofs.Command
import SentenceScript.Proofs.Comparisons
import SentenceScript.Proofs.Conditionals
import SentenceScript.Proofs.Course
import SentenceScript.Proofs.Delivery
import SentenceScript.Proofs.Effect
import SentenceScript.Proofs.Feeding
import SentenceScript.Proofs.Filling
import SentenceScript.Proofs.FiniteNumbers
import SentenceScript.Proofs.Frame
import SentenceScript.Proofs.Grammar
import SentenceScript.Proofs.JsonText
import SentenceScript.Proofs.LetterCase
import SentenceScript.Proofs.Line
import SentenceScript.Proofs.Lockstep
import SentenceScript.Proofs.Log
import SentenceScript.Proofs.LoopCap
import SentenceScript.Proofs.LoopControl
import SentenceScript.Proofs.LoopEnd
import SentenceScript.Proofs.LoopMachine
import SentenceScript.Proofs.Mirror
import SentenceScript.Proofs.MissingVariables
import SentenceScript.Proofs.Numerals
import SentenceScript.Proofs.Path
import SentenceScript.Proofs.Permanence
import SentenceScript.Proofs.Phrasing
import SentenceScript.Proofs.Quotations
import SentenceScript.Proofs.Records
import SentenceScript.Proofs.Restoring
import SentenceScript.Proofs.Rounding
import SentenceScript.Proofs.ServerHistory
import SentenceScript.Proofs.ServerTable
import SentenceScript.Proofs.ServiceRecords
import SentenceScript.Proofs.SessionSnapshot
import SentenceScript.Proofs.Silence
import SentenceScript.Proofs.SnapshotText
import SentenceScript.Proofs.SpeechText
import SentenceScript.Proofs.Spelling
import SentenceScript.Proofs.SpokenSentences
import SentenceScript.Proofs.SpokenState
import SentenceScript.Proofs.Termination
import SentenceScript.Proofs.Timestamps
import SentenceScript.Proofs.TwinWorlds
import SentenceScript.Proofs.Underflow
import SentenceScript.Proofs.UnknownLines
import SentenceScript.Proofs.Unrolling
import SentenceScript.Proofs.Unseen
import SentenceScript.Proofs.WhileLoop
import SentenceScript.Proofs.Wording
import SentenceScript.Proofs.WrittenSentences
import SentenceScript.Run.Act
import SentenceScript.Run.Action
import SentenceScript.Run.Script
import SentenceScript.Sentence.Classify
import SentenceScript.Sentence.Clause
import SentenceScript.Sentence.Command
import SentenceScript.Sentence.Form
import SentenceScript.Sentence.Shape
import SentenceScript.Service.Basic
import SentenceScript.Service.Canned
import SentenceScript.Session
import SentenceScript.Settings.Document
import SentenceScript.Snapshot.Basic
import SentenceScript.Snapshot.Json
import SentenceScript.Speech
import SentenceScript.State.Basic
import SentenceScript.State.Bindings
import SentenceScript.State.Servers
import SentenceScript.Text.Lowercase
import SentenceScript.Text.Rows
import SentenceScript.Text.Search
import SentenceScript.Toml.Document
import SentenceScript.Toml.Lexical
import SentenceScript.Toml.Scalar
import SentenceScript.Toml.Table
import SentenceScript.Value
