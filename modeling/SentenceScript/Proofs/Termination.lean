import SentenceScript.Proofs.WhileLoop

namespace SentenceScript

open SentenceScript.Action Text

/-- The routines that call one another when a line is executed. -/
inductive Routine where
  | feed (row : String)
  | line (text : String)
  | close
  | body (lines : List String)
  | counted (lines : List String) (times i : Nat)
  | guarded (guard : Guard) (lines : List String) (done : Nat)

namespace Routine

def passes (lines : List String) : LoopKind → Routine
  | .times count => counted lines count.toNat 1
  | .guarded guard => guarded guard lines 0

/-- What a routine does, given what its calls do. A line calls its clause or the end of the loop, the
end of a loop its passes, a pass the body and the next pass, a body its lines. Nothing is counted
down. -/
def step (world : World) (call : Routine → Action Unit) : Routine → Action Unit
  | feed row => do
      let text := trim row
      if text.isEmpty then return
      match (← get).loop with
      | .collecting kind lines =>
          if endsLoop text then call (.line text)
          else setLoop (.collecting kind (lines ++ [text]))
      | _ => call (.line text)
  | line text =>
      match (Sentence.classify text).command with
      | .conditional c yes no => do
          if ← test c then call (.line yes)
          else no.elim (pure ()) fun clause => call (.line clause)
      | _ => (Sentence.classify text).act world (call .close)
  | close => do
      match ← takeLoop with
      | .collecting kind lines =>
          setLoop (.replaying kind)
          try call (passes lines kind) finally setLoop .closed
          say "Loop finished!"
      | other =>
          setLoop other
          throw .noActiveLoop
  | body [] => pure ()
  | body (text :: rest) => do
      call (.line text)
      call (.body rest)
  | counted lines times i =>
      if times < i then pure ()
      else do
        say ("  Iteration " ++ toString i ++ ":")
        call (.body lines)
        call (.counted lines times (i + 1))
  | guarded guard lines done =>
      if world.settings.maxPasses ≤ done then throw (.loopOverrun world.settings.maxPasses)
      else do
        let value ← lookup guard.subject
        if guard.comparison.holds value (.number guard.threshold) then
          say (Replay.announce guard (done + 1) value)
          call (.body lines)
          call (.guarded guard lines (done + 1))

/-- The routines with calls nested up to some depth. Calls nested deeper do whatever `beyond` says. -/
def unrolled (world : World) (beyond : Routine → Action Unit) : (depth : Nat) → Routine → Action Unit
  | 0 => beyond
  | depth + 1 => step world (unrolled world beyond depth)

/-- What a routine does in full. -/
def run (world : World) : Routine → Action Unit
  | feed row => State.feed world row
  | line text => State.execute world text
  | close => Replay.close world
  | body lines => Replay.body world lines
  | counted lines times i => Replay.counted world lines (times + 1 - i) i
  | guarded guard lines done =>
      Replay.guarded world guard lines (world.settings.maxPasses - done) (done + 1)

/-- In a body, each line makes room for its clauses and for one end of a loop. -/
def bodyDepth : List String → Nat
  | [] => 1
  | text :: rest => text.length + 2 + bodyDepth rest

def passCount (world : World) : LoopKind → Nat
  | .times count => count.toNat
  | .guarded _ => world.settings.maxPasses

def closeDepth (world : World) : Loop → Nat
  | .collecting kind lines => passCount world kind + bodyDepth lines + 2
  | .closed | .replaying _ => 1

/-- How deep the calls of a routine can nest. -/
def depth (world : World) (loop : Loop) : Routine → Nat
  | feed row => (trim row).length + closeDepth world loop + 2
  | line text => text.length + closeDepth world loop + 1
  | close => closeDepth world loop
  | body lines => bodyDepth lines
  | counted lines times i => times + 1 - i + bodyDepth lines + 1
  | guarded _ lines done => world.settings.maxPasses - done + bodyDepth lines + 1

/-- Bodies and passes are only called while a loop is replayed. -/
def Callable (loop : Loop) : Routine → Prop
  | feed _ | line _ | close => True
  | body _ | counted .. | guarded .. => ∃ kind, loop = .replaying kind

end Routine

namespace Replay

theorem body_cases (world : World) (lines : List String) {s : State} {kind : LoopKind}
    (h : s.loop = .replaying kind) :
    (∃ t, t.loop = .replaying kind ∧ body world lines s = .ok () t) ∨
      ∃ e t, body world lines s = .error e t := by
  rw [body_eq_executeAll world lines h]
  rcases State.executeAll_cases world lines h with ⟨t, -, hl, ht⟩ | ⟨e, t, -, -, he⟩
  · exact .inl ⟨t, hl.trans h, ht⟩
  · exact .inr ⟨e, t, he.executeAll⟩

end Replay

namespace Routine

variable {world : World} {call : Routine → Action Unit} {s : State}

/-- One more level is enough for a routine if the level below is for every call that it makes. -/
theorem step_line {text : String}
    (hline : ∀ clause : String, clause.length < text.length →
      call (.line clause) s = s.execute world clause)
    (hclose : call .close s = Replay.close world s) :
    step world call (.line text) s = s.execute world text := by
  by_cases h : ∃ c yes no, (Sentence.classify text).command = .conditional c yes no
  · obtain ⟨c, yes, no, hc⟩ := h
    obtain ⟨hyes, hno⟩ := Sentence.classify_conditional hc
    have hstep : step world call (.line text) = (test c >>= fun holds =>
        if holds then call (.line yes)
        else no.elim (pure ()) fun clause => call (.line clause)) := by
      rw [step]
      split
      · next hother => cases hc.symm.trans hother; rfl
      · next hnone => exact absurd hc (hnone c yes no)
    rw [State.execute, Sentence.execute_conditional _ _ hc, hstep]
    rcases test_reading c s with ⟨b, hb⟩ | ⟨e, -, he⟩
    · have ht : test c s = .ok b s := hb s.loop []
      rw [bind_ok ht, bind_ok ht]
      cases b with
      | true => exact hline yes hyes
      | false =>
          cases no with
          | none => rfl
          | some clause => exact hline clause (hno clause rfl)
    · have ht : test c s = .error e s := he s.loop []
      rw [bind_error ht, bind_error ht]
  · have hl : ∀ c yes no, (Sentence.classify text).command ≠ .conditional c yes no :=
      fun c yes no hc => h ⟨c, yes, no, hc⟩
    have hstep : step world call (.line text) = Sentence.execute world (call .close) text := by
      rw [Sentence.execute_leaf _ _ hl, step]
      split
      · next hc => exact absurd hc (hl _ _ _)
      · rfl
    rw [hstep]
    exact Sentence.execute_congr world hclose text

theorem step_close_idle (call : Routine → Action Unit) (h : s.loop.isCollecting = false) :
    step world call .close s = .error .noActiveLoop s := by
  obtain ⟨bindings, tasks, loop, endpoint, response, servers, request, reply, log⟩ := s
  cases loop with
  | collecting => simp [Loop.isCollecting] at h
  | closed | replaying => rfl

theorem step_close {kind : LoopKind} {lines : List String} (hl : s.loop = .collecting kind lines)
    (hpasses : call (passes lines kind) { s with loop := .replaying kind } =
      Replay.passes world lines kind { s with loop := .replaying kind }) :
    step world call .close s = Replay.close world s := by
  have ht : takeLoop s = .ok (.collecting kind lines) { s with loop := .closed } := by
    rw [← hl]; rfl
  rw [step, Replay.close, bind_ok ht, bind_ok ht]
  change (tryFinally (call (passes lines kind)) (setLoop .closed) >>= fun _ => say "Loop finished!")
      { s with loop := .replaying kind } =
    (tryFinally (Replay.passes world lines kind) (setLoop .closed) >>= fun _ =>
      say "Loop finished!") { s with loop := .replaying kind }
  have hclosed := (Replay.tryFinally_setLoop .closed hpasses).trans
    (Replay.tryFinally_setLoop .closed rfl).symm
  simp only [bind, EStateM.bind, hclosed]

theorem step_body {kind : LoopKind} {text : String} {rest : List String}
    (hs : s.loop = .replaying kind) (hline : call (.line text) s = s.execute world text)
    (hrest : ∀ t : State, t.loop = .replaying kind →
      call (.body rest) t = Replay.body world rest t) :
    step world call (.body (text :: rest)) s = Replay.body world (text :: rest) s := by
  have hx := Replay.line_eq_execute world text (s := s) (by rw [hs]; rfl)
  rw [Replay.body, forM_cons, step]
  rcases State.execute_replaying world text hs with ⟨e, -, he⟩ | ⟨t, -, hl, ht⟩
  · rw [bind_error (hline.trans he), bind_error (hx.trans he)]
  · rw [bind_ok (hline.trans ht), bind_ok (hx.trans ht)]
    exact hrest t (hl.trans hs)

/-- A pass is the body and then the passes that are left. -/
theorem body_bind {kind : LoopKind} {lines : List String} {next more : Action Unit}
    (hs : s.loop = .replaying kind) (hbody : call (.body lines) s = Replay.body world lines s)
    (hnext : ∀ t : State, t.loop = .replaying kind → next t = more t) :
    (call (.body lines) >>= fun _ => next) s = (Replay.body world lines >>= fun _ => more) s := by
  rcases Replay.body_cases world lines hs with ⟨t, hl, ht⟩ | ⟨e, t, he⟩
  · rw [bind_ok (hbody.trans ht), bind_ok ht]
    exact hnext t hl
  · rw [bind_error (hbody.trans he), bind_error he]

theorem step_counted {kind : LoopKind} {lines : List String} {times i : Nat}
    (hs : s.loop = .replaying kind)
    (hbody : ∀ t : State, t.loop = .replaying kind →
      call (.body lines) t = Replay.body world lines t)
    (hnext : i ≤ times → ∀ t : State, t.loop = .replaying kind →
      call (.counted lines times (i + 1)) t = run world (.counted lines times (i + 1)) t) :
    step world call (.counted lines times i) s = run world (.counted lines times i) s := by
  rw [step, run]
  split
  · next h =>
      have hleft : times + 1 - i = 0 := by omega
      rw [hleft]
      rfl
  · next h =>
      have hleft : times + 1 - i = times - i + 1 := by omega
      rw [hleft]
      refine body_bind (s := s.say _) hs (hbody _ hs) fun t ht => ?_
      rw [hnext (Nat.le_of_not_lt h) t ht, run, Nat.add_sub_add_right]

theorem step_guarded {kind : LoopKind} {guard : Guard} {lines : List String} {done : Nat}
    (hs : s.loop = .replaying kind)
    (hbody : ∀ t : State, t.loop = .replaying kind →
      call (.body lines) t = Replay.body world lines t)
    (hnext : done < world.settings.maxPasses → ∀ t : State, t.loop = .replaying kind →
      call (.guarded guard lines (done + 1)) t = run world (.guarded guard lines (done + 1)) t) :
    step world call (.guarded guard lines done) s = run world (.guarded guard lines done) s := by
  rw [step, run]
  split
  · next h =>
      rw [Nat.sub_eq_zero_of_le h]
      rfl
  · next h =>
      have hleft : world.settings.maxPasses - done = world.settings.maxPasses - (done + 1) + 1 := by
        omega
      rw [hleft, Replay.guarded]
      cases hv : s.bindings.get? guard.subject with
      | none => rw [bind_error (lookup_none hv), bind_error (lookup_none hv)]
      | some value =>
          rw [bind_ok (lookup_some hv), bind_ok (lookup_some hv)]
          split
          · exact body_bind (s := s.say _) hs (hbody _ hs) (hnext (by omega))
          · rfl

theorem step_feed {row : String} (hline : call (.line (trim row)) s = s.execute world (trim row)) :
    step world call (.feed row) s = s.feed world row := by
  unfold step State.feed
  dsimp only
  split
  · rfl
  · rw [get_bind, get_bind]
    cases s.loop with
    | closed | replaying => exact hline
    | collecting kind lines =>
        dsimp only
        split
        · exact hline
        · rfl

theorem bodyDepth_pos (lines : List String) : 0 < bodyDepth lines := by
  cases lines with
  | nil => exact Nat.one_pos
  | cons text rest => exact Nat.add_pos_left (Nat.succ_pos _) _

theorem closeDepth_pos (world : World) (loop : Loop) : 0 < closeDepth world loop := by
  cases loop with
  | collecting => exact Nat.succ_pos _
  | closed | replaying => exact Nat.one_pos

theorem depth_pos (world : World) (loop : Loop) (r : Routine) : 0 < r.depth world loop := by
  cases r with
  | close => exact closeDepth_pos world loop
  | body lines => exact bodyDepth_pos lines
  | feed | line | counted | guarded => exact Nat.succ_pos _

/-- The calls of a routine never nest deeper than its depth: what lies beyond is not looked at. -/
theorem unrolled_eq_run (world : World) (beyond : Routine → Action Unit) {n : Nat} {r : Routine}
    {s : State} (hc : r.Callable s.loop) (hn : r.depth world s.loop ≤ n) :
    unrolled world beyond n r s = r.run world s := by
  -- The depth bounds every call that the routine makes, in the states in which it makes them.
  induction n generalizing r s with
  | zero => exact absurd hn (Nat.not_le_of_gt (depth_pos world s.loop r))
  | succ n ih =>
      rw [unrolled]
      cases r with
      | feed row =>
          refine step_feed (ih (r := .line (trim row)) trivial ?_)
          simp only [depth] at hn ⊢
          omega
      | line text =>
          simp only [depth] at hn
          have := closeDepth_pos world s.loop
          refine step_line (fun clause hl => ih (r := .line clause) trivial ?_)
            (ih (r := .close) trivial ?_)
          · simp only [depth]; omega
          · simp only [depth]; omega
      | close =>
          cases hl : s.loop with
          | closed | replaying =>
              have hi : s.loop.isCollecting = false := by rw [hl]; rfl
              exact (step_close_idle _ hi).trans (Replay.close_idle world hi).symm
          | collecting kind lines =>
              simp only [depth, hl, closeDepth] at hn
              refine step_close hl ?_
              cases kind with
              | times count =>
                  refine ih (r := .counted lines count.toNat 1) ⟨_, rfl⟩ ?_
                  simp only [depth, passCount] at hn ⊢
                  omega
              | guarded guard =>
                  refine ih (r := .guarded guard lines 0) ⟨_, rfl⟩ ?_
                  simp only [depth, passCount] at hn ⊢
                  omega
      | body lines =>
          obtain ⟨kind, hs⟩ := hc
          cases lines with
          | nil => rfl
          | cons text rest =>
              simp only [depth, bodyDepth] at hn
              have := bodyDepth_pos rest
              refine step_body hs (ih (r := .line text) trivial ?_) fun t ht =>
                ih (r := .body rest) ⟨kind, ht⟩ ?_
              · simp only [depth, hs, closeDepth]; omega
              · simp only [depth]; omega
      | counted lines times i =>
          obtain ⟨kind, hs⟩ := hc
          simp only [depth] at hn
          refine step_counted hs (fun t ht => ih (r := .body lines) ⟨kind, ht⟩ ?_)
            fun hi t ht => ih (r := .counted lines times (i + 1)) ⟨kind, ht⟩ ?_
          · simp only [depth]; omega
          · simp only [depth]; omega
      | guarded guard lines done =>
          obtain ⟨kind, hs⟩ := hc
          simp only [depth] at hn
          refine step_guarded hs (fun t ht => ih (r := .body lines) ⟨kind, ht⟩ ?_)
            fun hi t ht => ih (r := .guarded guard lines (done + 1)) ⟨kind, ht⟩ ?_
          · simp only [depth]; omega
          · simp only [depth]; omega

end Routine

theorem State.execute_endLoop {world : World} {line : String} {sentence : Sentence} {s : State}
    (hs : s.loop.isCollecting = false) (hr : Sentence.Reaches s line sentence)
    (hc : sentence.command = .endLoop) : s.execute world line = .error .noActiveLoop s := by
  induction hr with
  | leaf line hl =>
      rw [execute_eq_close world hc]
      exact Replay.close_idle world hs
  | yes line c yes no sentence h ht hr ih =>
      rw [execute, Sentence.execute_conditional _ _ h, bind_ok ht]
      exact ih hc
  | no line c yes no sentence h ht hr ih =>
      rw [execute, Sentence.execute_conditional _ _ h, bind_ok ht]
      exact ih hc

theorem Sentence.classify_conditional_trim {line : String} {c : Condition} {yes : String}
    {no : Option String} (h : (classify line).command = .conditional c yes no) :
    yes.length < (trim line).length ∧ ∀ clause ∈ no, clause.length < (trim line).length := by
  rw [← classify_trim] at h
  exact classify_conditional h

/-- Executing a line ends. The routines that it takes call one another no deeper than a bound made of
the length of the line, the lines of the loop collected and the number of its passes, so that
nothing beyond that depth is ever looked at. A clause is shorter than the line it stands in, and the
end of a loop calls nothing while a loop is replayed. -/
theorem execution_terminates :
    (∀ (world : World) (beyond : Routine → Action Unit) (s : State) (line : String) (more : Nat),
      Routine.unrolled world beyond (Routine.depth world s.loop (.line line) + more) (.line line) s =
        s.execute world line ∧
      Routine.unrolled world beyond (Routine.depth world s.loop (.feed line) + more) (.feed line) s =
        s.feed world line) ∧
    (∀ (line : String) (c : Condition) (yes : String) (no : Option String),
      (Sentence.classify line).command = .conditional c yes no →
      yes.length < (trim line).length ∧ ∀ clause ∈ no, clause.length < (trim line).length) ∧
    ∀ (world : World) (s : State) (kind : LoopKind), s.loop = .replaying kind →
      (∀ call : Routine → Action Unit, Routine.step world call .close s = .error .noActiveLoop s) ∧
      ∀ line sentence, Sentence.Reaches s line sentence → sentence.command = .endLoop →
        s.execute world line = .error .noActiveLoop s := by
  refine ⟨fun world beyond s line more => ⟨?_, ?_⟩,
    fun line c yes no h => Sentence.classify_conditional_trim h, fun world s kind hs => ?_⟩
  · exact Routine.unrolled_eq_run world beyond (r := .line line) trivial (Nat.le_add_right _ _)
  · exact Routine.unrolled_eq_run world beyond (r := .feed line) trivial (Nat.le_add_right _ _)
  · have hi : s.loop.isCollecting = false := by rw [hs]; rfl
    exact ⟨fun call => Routine.step_close_idle call hi,
      fun line sentence hr hc => State.execute_endLoop hi hr hc⟩

/-- A loop whose body reaches the end of a loop: the depth counts two passes and the one line, and
the line finds no loop to end. -/
theorem execution_terminates_end_in_body :
    let body := ["if a is equal to b, end"]
    let s : State := { equalTexts with loop := .collecting (.times 2) body }
    let t : State := { equalTexts with loop := .replaying (.times 2) }
    let world : World := ⟨{}, Canned.services .epoch⟩
    Routine.depth world s.loop (.line "end") = 34 ∧
      (∀ beyond, Routine.unrolled world beyond 34 (.line "end") s = s.execute world "end") ∧
      "end".length < (trim "if a is equal to b, end").length ∧
      t.execute world "if a is equal to b, end" = .error .noActiveLoop t := by
  intro body s t world
  have hc : (Sentence.classify "if a is equal to b, end").command =
      .conditional ⟨"a", .equalTo, .named "b"⟩ "end" none := by rfl
  have hend : (Sentence.classify "end").command = .endLoop := by rfl
  have hr : Sentence.Reaches t "if a is equal to b, end" (Sentence.classify "end") :=
    .yes _ _ _ _ _ hc rfl (.leaf "end" (by rw [hend]; simp))
  obtain ⟨hdeep, hshort, hidle⟩ := execution_terminates
  exact ⟨by decide, fun beyond => (hdeep world beyond s "end" 0).1,
    (hshort _ _ _ _ hc).1, (hidle world t _ rfl).2 _ _ hr hend⟩

end SentenceScript
