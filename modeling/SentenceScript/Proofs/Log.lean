import SentenceScript.Proofs.Delivery
import SentenceScript.Proofs.Permanence

namespace SentenceScript

open SentenceScript.Action

namespace State

/-- The state without its log. -/
def unlogged (s : State) : State := { s with log := [] }

@[simp] theorem unlogged_after_log (s : State) : s.unlogged.after s.log = s := by
  simp only [unlogged, after, List.append_nil]

end State

/-- How two calls end that start in the states `s` and `t`, which differ only in their logs. They end
alike, in states that again differ only in their logs, and each has written the same lines behind
those that it found. -/
structure Outcome.Alike (s t : State) (a b : Outcome) : Prop where
  failure : a.failure = b.failure
  unlogged : a.state.unlogged = b.state.unlogged
  log : ∃ lines, a.state.log = s.log ++ lines ∧ b.state.log = t.log ++ lines

namespace Action

variable {x : Action Unit} {s t : State}

/-- What an action does is told by the state without the log, and the log is put before it. -/
theorem Unread.eq_after (hx : Unread x) (s : State) :
    x s = Outcome.after s.log (x s.unlogged) := by
  have h := hx s.unlogged s.log
  rwa [State.unlogged_after_log] at h

theorem Unread.alike (hx : Unread x) (h : s.unlogged = t.unlogged) :
    Outcome.Alike s t (x s) (x t) := by
  have hs := hx.eq_after s
  have ht := hx.eq_after t
  rw [← h] at ht
  rw [hs, ht]
  cases x s.unlogged with
  | ok _ u | error e u => exact ⟨rfl, rfl, u.log, rfl, rfl⟩

end Action

namespace State

variable {world : World} {s t : State}

theorem Follows.log_prefix (h : s.Follows t) : s.log <+: t.log := by
  induction h with
  | refl => exact List.prefix_rfl
  | execute t world line h ih =>
      obtain ⟨lines, hl, -⟩ := ((execute_unread world line).alike (s := t) rfl).log
      rw [hl]
      exact ih.trans (List.prefix_append _ _)
  | feed t world line h ih =>
      obtain ⟨lines, hl, -⟩ := ((feed_unread world line).alike (s := t) rfl).log
      rw [hl]
      exact ih.trans (List.prefix_append _ _)

theorem record_feed_alike (world : World) (line : String) (h : s.unlogged = t.unlogged) :
    Outcome.Alike s t (record (feed world line) s) (record (feed world line) t) :=
  (feed_unread world line).record.alike h

end State

/-- From states that differ only in their logs, a line does the same, fails with the same failure and
writes the same lines, whether it is executed or fed, by itself or in a session. So whatever lines
come, those that a log has stay in it, in their places. -/
theorem log_append_only_and_unread :
    (∀ (world : World) (line : String) (s t : State), s.unlogged = t.unlogged →
      Outcome.Alike s t (s.execute world line) (t.execute world line) ∧
        Outcome.Alike s t (s.feed world line) (t.feed world line)) ∧
    (∀ (world : World) (line : String) (s t : State), s.unlogged = t.unlogged →
      let x := Session.feed ⟨world, s⟩ line
      let y := Session.feed ⟨world, t⟩ line
      x.result = y.result ∧ x.echoed = y.echoed ∧
        x.session.state.unlogged = y.session.state.unlogged ∧
        ∃ lines, x.session.state.log = s.log ++ lines ∧ y.session.state.log = t.log ++ lines) ∧
    ∀ s t : State, s.Follows t → s.log <+: t.log := by
  refine ⟨fun world line s t h => ⟨?_, ?_⟩, ?_, fun s t h => h.log_prefix⟩
  · exact (State.execute_unread world line).alike h
  · exact (State.feed_unread world line).alike h
  · intro world line s t h x y
    obtain ⟨hfailure, hrest, lines, hs, ht⟩ := State.record_feed_alike world line h
    have hx : x.session.state = Outcome.state (State.record (State.feed world line) s) :=
      Session.feed_state _ _
    have hy : y.session.state = Outcome.state (State.record (State.feed world line) t) :=
      Session.feed_state _ _
    rw [hx, hy]
    refine ⟨?_, ?_, hrest, lines, hs, ht⟩
    · simp only [x, y, Session.feed, Session.step, hfailure]
    · simp only [x, y, Session.feed, Session.step, Session.echoSince, hs, ht, List.drop_left]

/-- A loop that fails in its first pass, after a log of one line. -/
theorem log_append_only_and_unread_failing_loop :
    let world : World := ⟨{}, Canned.services .epoch⟩
    let s : State := { failingLoop with log := ["Hello"] }
    let o : Outcome := s.feed world "end"
    s.unlogged = failingLoop.unlogged ∧ o.failure = some (.undefinedVariable "missing") ∧
      o.state.log = ["Hello", "  Iteration 1:", "Marked task \"t\" as complete"] := by
  intro world s o
  have hs : s.unlogged = failingLoop.unlogged := rfl
  obtain ⟨hfailure, -, lines, hlog, hlines⟩ :=
    (log_append_only_and_unread.1 world "end" s failingLoop hs).2
  rw [failingLoop_feed_end] at hfailure hlines
  obtain rfl : ["  Iteration 1:", "Marked task \"t\" as complete"] = lines := hlines
  exact ⟨hs, hfailure, hlog⟩

end SentenceScript
