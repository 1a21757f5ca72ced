import SentenceScript.Run.Script
import SentenceScript.Proofs.Command

namespace SentenceScript

namespace Sentence

open SentenceScript.Action

theorem line_induction {P : String → Prop}
    (leaf : ∀ line, (∀ c yes no, (classify line).command ≠ .conditional c yes no) → P line)
    (conditional : ∀ line c yes no, (classify line).command = .conditional c yes no →
      P yes → (∀ clause ∈ no, P clause) → P line) (line : String) : P line := by
  by_cases h : ∃ c yes no, (classify line).command = .conditional c yes no
  · obtain ⟨c, yes, no, h⟩ := h
    have := classify_conditional h
    exact conditional line c yes no h (line_induction leaf conditional yes)
      fun clause hc => line_induction leaf conditional clause
  · exact leaf line fun c yes no hc => h ⟨c, yes, no, hc⟩
termination_by line.length
decreasing_by
  · exact this.1
  · exact this.2 clause hc

theorem execute_leaf (world : World) (finish : Action Unit) {line : String}
    (h : ∀ c yes no, (classify line).command ≠ .conditional c yes no) :
    execute world finish line = (classify line).act world finish := by
  rw [execute.eq_def]
  split
  · exact absurd ‹_› (h _ _ _)
  · exact absurd ‹_› (h _ _ _)
  · rfl

theorem execute_conditional (world : World) (finish : Action Unit) {line : String} {c : Condition}
    {yes : String} {no : Option String} (h : (classify line).command = .conditional c yes no) :
    execute world finish line = (test c >>= fun holds =>
      if holds then execute world finish yes
      else no.elim (pure ()) (execute world finish)) := by
  rw [execute.eq_def]
  split
  · next hc => cases h.symm.trans hc; rfl
  · next hc => cases h.symm.trans hc; rfl
  · next hnone hsome =>
      cases no with
      | none => exact absurd h (hnone c yes)
      | some no => exact absurd h (hsome c yes no)

/-- The sentence that a line comes down to in a state, through the clauses that its conditionals
choose. -/
inductive Reaches (s : State) : String → Sentence → Prop
  | leaf (line) (h : ∀ c yes no, (classify line).command ≠ .conditional c yes no) :
      Reaches s line (classify line)
  | yes (line) (c) (yes) (no) (sentence) (h : (classify line).command = .conditional c yes no)
      (ht : test c s = .ok true s) (hr : Reaches s yes sentence) : Reaches s line sentence
  | no (line) (c) (yes) (no) (sentence)
      (h : (classify line).command = .conditional c yes (some no))
      (ht : test c s = .ok false s) (hr : Reaches s no sentence) : Reaches s line sentence

/-- The sentences that a line may come down to, whatever its conditionals choose. -/
inductive CanReach : String → Sentence → Prop
  | leaf (line) (h : ∀ c yes no, (classify line).command ≠ .conditional c yes no) :
      CanReach line (classify line)
  | yes (line) (c) (yes) (no) (sentence) (h : (classify line).command = .conditional c yes no)
      (hr : CanReach yes sentence) : CanReach line sentence
  | no (line) (c) (yes) (no) (sentence)
      (h : (classify line).command = .conditional c yes (some no)) (hr : CanReach no sentence) :
      CanReach line sentence

theorem Reaches.canReach {s : State} {line : String} {sentence : Sentence}
    (h : Reaches s line sentence) : CanReach line sentence := by
  induction h with
  | leaf line h => exact .leaf line h
  | yes line c yes no sentence h ht hr ih => exact .yes line c yes no sentence h ih
  | no line c yes no sentence h ht hr ih => exact .no line c yes no sentence h ih

/-- A line does what the sentence does that it comes down to. Where it comes down to none, because a
condition fails or chooses no clause, it changes nothing. Neither hangs on the world or on what ends
a loop. -/
theorem execute_cases (line : String) (s : State) :
    (∃ sentence, Reaches s line sentence ∧
        ∀ world finish, execute world finish line s = sentence.act world finish s) ∨
      (∀ world finish, execute world finish line s = .ok () s) ∨
      ∃ e, s.Refuses e ∧ ∀ world finish, execute world finish line s = .error e s := by
  induction line using line_induction with
  | leaf line hl => exact .inl ⟨_, .leaf line hl, fun _ _ => by rw [execute_leaf _ _ hl]⟩
  | conditional line c yes no hc ihy ihn =>
      simp only [execute_conditional _ _ hc]
      rcases test_reading c s with ⟨b, hb⟩ | ⟨e, he, ht⟩
      · have ht : test c s = .ok b s := hb s.loop []
        simp only [bind_ok ht]
        cases b with
        | true =>
            rcases ihy with ⟨x, hx, h⟩ | h
            · exact .inl ⟨x, .yes line c yes no x hc ht hx, h⟩
            · exact .inr h
        | false =>
            cases no with
            | none => exact .inr (.inl fun _ _ => rfl)
            | some no =>
                rcases ihn no rfl with ⟨x, hx, h⟩ | h
                · exact .inl ⟨x, .no line c yes no x hc ht hx, h⟩
                · exact .inr h
      · exact .inr (.inr ⟨e, he, fun _ _ => bind_error (ht s.loop [])⟩)

/-- A line does the same in two worlds if all sentences do that it may come down to. -/
theorem execute_world_congr {world world' : World} {finish : Action Unit} {line : String}
    (h : ∀ sentence, CanReach line sentence → sentence.act world finish = sentence.act world' finish) :
    execute world finish line = execute world' finish line := by
  funext s
  rcases execute_cases line s with ⟨x, hx, he⟩ | he | ⟨e, -, he⟩
  · rw [he, he, h x hx.canReach]
  · rw [he, he]
  · rw [he, he]

/-- In a state, a line either is the end of a loop or has nothing to do with it. -/
theorem execute_finish_or (world : World) (line : String) (s : State) :
    (∀ finish, execute world finish line s = finish s) ∨
      ∀ finish finish', execute world finish line s = execute world finish' line s := by
  rcases execute_cases line s with ⟨x, -, he⟩ | he | ⟨e, -, he⟩
  · by_cases hx : x.command = .endLoop
    · exact .inl fun finish => by rw [he, act_eq_finish hx]
    · exact .inr fun finish finish' => by rw [he, he, act_finish_congr hx world finish finish']
  · exact .inr fun _ _ => by rw [he, he]
  · exact .inr fun _ _ => by rw [he, he]

/-- What a line does depends on the end of a loop only through the state it starts in. -/
theorem execute_congr (world : World) {finish finish' : Action Unit} {s : State}
    (h : finish s = finish' s) (line : String) :
    execute world finish line s = execute world finish' line s := by
  rcases execute_finish_or world line s with he | he
  · rw [he, he, h]
  · exact he finish finish'

end Sentence

end SentenceScript
