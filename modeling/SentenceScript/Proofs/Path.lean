import SentenceScript.Proofs.Wording
import SentenceScript.Proofs.Line

namespace SentenceScript

open SentenceScript.Action Text

/-- The value that an operand has in a state, if it has one. -/
def Operand.value? (s : State) : Operand → Option Value
  | .literal n => some (.number n)
  | .named name => s.bindings.get? name

/-- Whether a condition holds, where its variables are there. -/
def Condition.verdict? (s : State) (c : Condition) : Option Bool :=
  (s.bindings.get? c.subject).bind fun left =>
    (c.operand.value? s).map fun right => c.comparison.holds left right

/-- The clause that a conditional chooses. It chooses none where a variable is missing, or where it
does not hold and has no second clause. -/
def Command.chosen? (s : State) : Command → Option String
  | .conditional c yes no => (c.verdict? s).bind fun holds => if holds then some yes else no
  | _ => none

namespace Action

variable {s : State} {c : Condition}

theorem operand_some {o : Operand} {value : Value} (h : o.value? s = some value) :
    operand o s = .ok value s := by
  cases o with
  | literal n => cases h; rfl
  | named name => exact lookup_some h

theorem test_of_verdict {holds : Bool} (h : c.verdict? s = some holds) : test c s = .ok holds s := by
  obtain ⟨left, hl, h⟩ := Option.bind_eq_some_iff.1 h
  obtain ⟨right, hr, rfl⟩ := Option.map_eq_some_iff.1 h
  rw [test, bind_ok (lookup_some hl), bind_ok (operand_some hr)]
  rfl

/-- A condition without a verdict fails. -/
theorem test_of_no_verdict (h : c.verdict? s = none) : ∃ e, test c s = .error e s := by
  cases hl : s.bindings.get? c.subject with
  | none => exact ⟨_, bind_error (lookup_none hl)⟩
  | some left =>
      rw [Condition.verdict?, hl, Option.bind_some, Option.map_eq_none_iff] at h
      cases ho : c.operand with
      | literal n =>
          rw [ho] at h
          cases h
      | named name =>
          rw [ho] at h
          refine ⟨.undefinedVariable name, ?_⟩
          rw [test, bind_ok (lookup_some hl), ho]
          exact bind_error (lookup_none h)

end Action

namespace Sentence

/-- The sentences on the way of a line: its own, and those of the clause that it chooses. -/
inductive Visits (s : State) : String → Sentence → Prop
  | here (line : String) : Visits s line (classify line)
  | next {line clause : String} {x : Sentence}
      (h : (classify line).command.chosen? s = some clause) (hx : Visits s clause x) :
      Visits s line x

/-- The last sentence on the way of a line, which chooses no clause. -/
def StopsAt (s : State) (line : String) (x : Sentence) : Prop :=
  Visits s line x ∧ x.command.chosen? s = none

variable {world : World} {finish : Action Unit} {s : State} {line clause : String} {x y : Sentence}

theorem execute_next (h : (classify line).command.chosen? s = some clause) :
    execute world finish line s = execute world finish clause s := by
  cases hc : (classify line).command with
  | conditional c yes no =>
      rw [hc] at h
      obtain ⟨holds, hv, hchosen⟩ := Option.bind_eq_some_iff.1 h
      rw [execute_conditional _ _ hc, bind_ok (test_of_verdict hv)]
      cases holds with
      | true => cases hchosen; rfl
      | false => cases hchosen; rfl
  | _ => rw [hc] at h; cases h

theorem execute_trim (line : String) :
    execute world finish (trim line) = execute world finish line := by
  cases hc : (classify line).command with
  | conditional c yes no =>
      rw [execute_conditional _ _ hc, execute_conditional _ _ ((classify_trim line).symm ▸ hc)]
  | _ =>
      rw [execute_leaf _ _ (by rw [classify_trim, hc]; simp), execute_leaf _ _ (by rw [hc]; simp),
        classify_trim]

theorem Visits.classify_line (h : Visits s line x) : classify x.line = x := by
  induction h with
  | here line => exact classify_trim line
  | next h hx ih => exact ih

/-- A line does what every sentence on its way does alone. -/
theorem Visits.execute_eq (h : Visits s line x) :
    execute world finish line s = execute world finish x.line s := by
  induction h with
  | here line => exact congrFun (execute_trim line).symm s
  | next h hx ih => exact (execute_next h).trans ih

theorem exists_stopsAt (s : State) (line : String) : ∃ x, StopsAt s line x := by
  induction line using line_induction with
  | leaf line hl =>
      refine ⟨classify line, .here line, ?_⟩
      cases hc : (classify line).command with
      | conditional c yes no => exact absurd hc (hl c yes no)
      | _ => rfl
  | conditional line c yes no hc ihy ihn =>
      cases hchosen : (classify line).command.chosen? s with
      | none => exact ⟨classify line, .here line, hchosen⟩
      | some clause =>
          have hstop : ∃ x, StopsAt s clause x := by
            rw [hc] at hchosen
            obtain ⟨holds, -, h⟩ := Option.bind_eq_some_iff.1 hchosen
            cases holds with
            | true => cases h; exact ihy
            | false => exact ihn clause h
          obtain ⟨x, hx, hstop⟩ := hstop
          exact ⟨x, .next hchosen hx, hstop⟩

theorem StopsAt.unique (hx : StopsAt s line x) (hy : StopsAt s line y) : x = y := by
  obtain ⟨hx, hstop⟩ := hx
  induction hx with
  | here line =>
      cases hy.1 with
      | here => rfl
      | next h _ => cases hstop.symm.trans h
  | next h _ ih =>
      cases hy.1 with
      | here => cases hy.2.symm.trans h
      | next h' hy' =>
          cases h.symm.trans h'
          exact ih ⟨hy', hy.2⟩ hstop

/-- A way ends at a sentence that is no conditional, at one that does not hold and has no second
clause, or at one that misses a variable. -/
theorem StopsAt.cases (h : StopsAt s line x) :
    (∀ c yes no, x.command ≠ .conditional c yes no) ∨
      (∃ c yes, x.command = .conditional c yes none ∧ c.verdict? s = some false) ∨
      ∃ c yes no, x.command = .conditional c yes no ∧ c.verdict? s = none := by
  by_cases hc : ∃ c yes no, x.command = .conditional c yes no
  · obtain ⟨c, yes, no, hc⟩ := hc
    have hstop := h.2
    rw [hc] at hstop
    cases hv : c.verdict? s with
    | none => exact .inr (.inr ⟨c, yes, no, hc, hv⟩)
    | some holds =>
        rw [Command.chosen?, hv, Option.bind_some] at hstop
        cases holds with
        | true => cases hstop
        | false =>
            obtain rfl : no = none := hstop
            exact .inr (.inl ⟨c, yes, hc, hv⟩)
  · exact .inl fun c yes no he => hc ⟨c, yes, no, he⟩

theorem Visits.execute_leaf (h : Visits s line x)
    (hc : ∀ c yes no, x.command ≠ .conditional c yes no) :
    execute world finish line s = x.act world finish s := by
  have hx := h.classify_line
  rw [h.execute_eq, Sentence.execute_leaf _ _ (by rwa [hx]), hx]

theorem Visits.execute_idle (h : Visits s line x) {c : Condition} {yes : String}
    (hc : x.command = .conditional c yes none) (hv : c.verdict? s = some false) :
    execute world finish line s = .ok () s := by
  rw [h.execute_eq, execute_conditional _ _ (h.classify_line.symm ▸ hc),
    bind_ok (test_of_verdict hv)]
  rfl

theorem Visits.execute_stuck (h : Visits s line x) {c : Condition} {yes : String}
    {no : Option String} (hc : x.command = .conditional c yes no) {e : Failure}
    (ht : test c s = .error e s) :
    execute world finish line s = .error e s := by
  rw [h.execute_eq, execute_conditional _ _ (h.classify_line.symm ▸ hc), bind_error ht]

end Sentence

end SentenceScript
