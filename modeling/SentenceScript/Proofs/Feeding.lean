import SentenceScript.Session
import SentenceScript.Proofs.Wording
import SentenceScript.Proofs.Line

namespace SentenceScript

open SentenceScript.Action Text

def Outcome.finishLoop : Outcome → Outcome
  | .ok _ t => .ok () ({ t with loop := .closed }.say "Loop finished!")
  | .error e t => .error e { t with loop := .closed }

namespace Replay

variable {world : World} {kind : LoopKind} {lines : List String} {s : State}

/-- Where no loop is collected, its end fails and puts back the loop that it took out. -/
theorem close_idle (world : World) (h : s.loop.isCollecting = false) :
    close world s = .error .noActiveLoop s := by
  obtain ⟨bindings, tasks, loop, endpoint, response, servers, request, reply, log⟩ := s
  cases loop with
  | collecting => simp [Loop.isCollecting] at h
  | closed | replaying => rfl

/-- Where no loop is collected, a line of a body does what it does outside. -/
theorem line_eq_execute (world : World) (text : String) (h : s.loop.isCollecting = false) :
    line world text s = State.execute world text s :=
  Sentence.execute_congr world (close_idle world h).symm text

/-- A counted loop looks at its world only through its body. -/
theorem counted_congr {world' : World} (h : body world lines = body world' lines) (left i : Nat) :
    counted world lines left i = counted world' lines left i := by
  induction left generalizing i with
  | zero => rfl
  | succ left ih => simp only [counted, h, ih]

theorem tryFinally_setLoop {x : Action Unit} {o : Outcome} (loop : Loop) (h : x s = o) :
    tryFinally x (setLoop loop) s = o.within loop [] := by
  simp only [tryFinally, Functor.map, EStateM.map, MonadFinally.tryFinally', h]
  cases o with
  | ok | error => rfl

/-- The end of a loop does what its passes do, then closes the loop and, if none failed, says so. -/
theorem close_eq (hl : s.loop = .collecting kind lines) :
    close world s =
      Outcome.finishLoop (passes world lines kind { s with loop := .replaying kind }) := by
  have ht : takeLoop s = .ok (.collecting kind lines) { s with loop := .closed } := by
    rw [← hl]; rfl
  rw [close, bind_ok ht]
  -- What was taken out comes back as a loop that is replayed, before the first pass.
  change (tryFinally (passes world lines kind) (setLoop .closed) >>= fun _ => say "Loop finished!")
    { s with loop := .replaying kind } = _
  cases hp : passes world lines kind { s with loop := .replaying kind } with
  | ok _ t =>
      rw [bind_ok (tryFinally_setLoop .closed hp)]
      rfl
  | error e t =>
      rw [bind_error (tryFinally_setLoop .closed hp)]
      rfl

end Replay

namespace State

variable {world : World} {line : String} {s : State}

theorem feed_blank (h : (trim line).isEmpty = true) : feed world line s = .ok () s := by
  simp only [feed, h]; rfl

theorem feed_kept {kind : LoopKind} {lines : List String} (hb : (trim line).isEmpty = false)
    (hl : s.loop = .collecting kind lines) (he : endsLoop (trim line) = false) :
    feed world line s = .ok () { s with loop := .collecting kind (lines ++ [trim line]) } := by
  simp only [feed, hb, Bool.false_eq_true, if_false, get_bind, hl, he]
  rfl

theorem feed_idle (hb : (trim line).isEmpty = false) (hl : s.loop.isCollecting = false) :
    feed world line s = execute world (trim line) s := by
  simp only [feed, hb, Bool.false_eq_true, if_false, get_bind]
  cases h : s.loop with
  | collecting => simp [h, Loop.isCollecting] at hl
  | closed | replaying => rfl

theorem feed_leaf (world : World) (line : String) (hb : (trim line).isEmpty = false)
    (hl : s.loop.isCollecting = false)
    (hc : ∀ c yes no, (Sentence.classify line).command ≠ .conditional c yes no) :
    feed world line s = (Sentence.classify line).act world (Replay.close world) s := by
  rw [← Sentence.classify_trim] at hc ⊢
  rw [feed_idle hb hl, execute, Sentence.execute_leaf _ _ hc]

theorem isEmpty_of_endsLoop (he : endsLoop (trim line) = true) : (trim line).isEmpty = false := by
  cases hb : (trim line).isEmpty with
  | false => rfl
  | true => simp [String.isEmpty_iff.1 hb, endsLoop] at he

theorem execute_eq_close (world : World) (h : (Sentence.classify line).command = .endLoop) :
    execute world line = Replay.close world := by
  rw [execute, Sentence.execute_leaf _ _ (by simp [h])]
  simp only [Sentence.act, h]

theorem feed_end {kind : LoopKind} {lines : List String} (hl : s.loop = .collecting kind lines)
    (he : endsLoop (trim line) = true) : feed world line s = Replay.close world s := by
  have hc : (Sentence.classify (trim line)).command = .endLoop := by
    rw [Sentence.classify_trim, Sentence.classify_endsLoop he]
  simp only [feed, isEmpty_of_endsLoop he, Bool.false_eq_true, if_false, get_bind, hl, he, if_true]
  rw [execute_eq_close world hc]

/-- A line that is fed is executed, or it does the same in every world. -/
theorem feed_kept_or_executed (line : String) (s : State) :
    (∃ t, ∀ world, feed world line s = .ok () t) ∨
      ∀ world, feed world line s = execute world (trim line) s := by
  cases hb : (trim line).isEmpty with
  | true => exact .inl ⟨s, fun _ => feed_blank hb⟩
  | false =>
      cases hl : s.loop with
      | closed | replaying => exact .inr fun _ => feed_idle hb (by rw [hl]; rfl)
      | collecting kind lines =>
          cases he : endsLoop (trim line) with
          | false => exact .inl ⟨_, fun _ => feed_kept hb hl he⟩
          | true =>
              right
              intro world
              simp only [feed, hb, Bool.false_eq_true, if_false, get_bind, hl, he, if_true]

section FeedAll

variable {t : State} {e : Failure} {first rest : List String}

theorem feedAll_nil : feedAll world [] s = .ok () s := rfl

theorem feedAll_cons_ok (h : feed world line s = .ok () t) :
    feedAll world (line :: rest) s = feedAll world rest t := bind_ok h

theorem feedAll_cons_error (h : feed world line s = .error e t) :
    feedAll world (line :: rest) s = .error e t := bind_error h

theorem feedAll_singleton : feedAll world [line] s = feed world line s := by
  cases h : feed world line s with
  | ok _ t => exact feedAll_cons_ok h
  | error e t => exact feedAll_cons_error h

theorem feedAll_append_ok (h : feedAll world first s = .ok () t) :
    feedAll world (first ++ rest) s = feedAll world rest t := by
  rw [feedAll, forM_append]; exact bind_ok h

theorem feedAll_append_error (h : feedAll world first s = .error e t) :
    feedAll world (first ++ rest) s = .error e t := by
  rw [feedAll, forM_append]; exact bind_error h

end FeedAll

theorem record_ok {x : Action Unit} {t : State} (h : x s = .ok () t) : record x s = .ok () t :=
  tryCatch_ok h

theorem record_error {x : Action Unit} {t : State} {e : Failure} (h : x s = .error e t) :
    record x s = .error e (t.say ("Error: " ++ e.message)) :=
  tryCatch_error h

end State

namespace Session

theorem run_state (x : Session) (source : String) :
    (x.run source).session.state = Outcome.state
      (State.record (State.feedAll x.world (scriptLines source)) { x.state with log := [] }) := by
  simp only [run, step]

theorem feed_state (x : Session) (line : String) :
    (x.feed line).session.state =
      Outcome.state (State.record (State.feed x.world line) x.state) := by
  simp only [feed, step]

theorem step_error {α : Type} {x : Session} {length : Nat} {o : Outcome} {result : State → α}
    {e : Failure} (h : (x.step length o result).result = .error e) : ∃ t, o = .error e t := by
  cases o with
  | ok _ t => simp [step, Outcome.failure] at h
  | error e' t =>
      simp only [step, Outcome.failure, Option.elim_some, Except.error.injEq] at h
      exact ⟨t, by rw [h]⟩

theorem record_inv {y : Action Unit} {s t : State} {e : Failure}
    (h : State.record y s = .error e t) :
    ∃ u, y s = .error e u ∧ t = u.say ("Error: " ++ e.message) := by
  cases hy : y s with
  | ok _ u => cases (State.record_ok hy).symm.trans h
  | error e' u =>
      cases (State.record_error hy).symm.trans h
      exact ⟨u, rfl, rfl⟩

theorem feed_error {x : Session} {line : String} {e : Failure}
    (h : (x.feed line).result = .error e) :
    ∃ t, State.feed x.world line x.state = .error e t ∧
      (x.feed line).session = { x with state := t.say ("Error: " ++ e.message) } := by
  obtain ⟨t, ht⟩ := step_error h
  obtain ⟨u, hu, rfl⟩ := record_inv ht
  exact ⟨u, hu, by rw [feed, step, ht]; rfl⟩

theorem run_ok {x : Session} {source : String} {t : State}
    (h : State.feedAll x.world (scriptLines source) { x.state with log := [] } = .ok () t) :
    x.run source = ⟨{ x with state := t }, .ok t.log, echoSince x.world.settings 0 t⟩ := by
  simp only [run, State.record_ok h]
  rfl

theorem run_error {x : Session} {source : String} {e : Failure}
    (h : (x.run source).result = .error e) :
    ∃ t, State.feedAll x.world (Text.scriptLines source) { x.state with log := [] } = .error e t ∧
      (x.run source).session = { x with state := t.say ("Error: " ++ e.message) } := by
  obtain ⟨t, ht⟩ := step_error h
  obtain ⟨u, hu, rfl⟩ := record_inv ht
  exact ⟨u, hu, by rw [run, step, ht]; rfl⟩

end Session

end SentenceScript
