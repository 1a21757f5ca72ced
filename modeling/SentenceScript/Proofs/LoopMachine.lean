import Mathlib.Logic.ExistsUnique
import SentenceScript.Proofs.Atomicity

namespace SentenceScript

open Text

namespace Loop

/-- Between two lines no loop is replaying. -/
def Settled (loop : Loop) : Prop := loop = .closed ∨ ∃ kind body, loop = .collecting kind body

inductive Move where
  | skip
  | stay
  | start
  | collect
  | finish

/-- A blank line is skipped. With no loop open a line leaves it so, or reaches a header and starts
that loop. With one open a line is collected as it is, or finishes the loop. -/
def Move.Made (line : String) (s : State) (o : Outcome) : Move → Prop
  | skip => (trim line).isEmpty = true ∧ o = .ok () s
  | stay => (trim line).isEmpty = false ∧ s.loop = .closed ∧ o.state.loop = .closed
  | start => (trim line).isEmpty = false ∧ s.loop = .closed ∧
      ∃ sentence kind t, Sentence.Reaches s (trim line) sentence ∧
        sentence.command.opens? = some kind ∧ o = .ok () t ∧ t.loop = .collecting kind []
  | collect => (trim line).isEmpty = false ∧ endsLoop (trim line) = false ∧
      ∃ kind body, s.loop = .collecting kind body ∧
        o = .ok () { s with loop := .collecting kind (body ++ [trim line]) }
  | finish => endsLoop (trim line) = true ∧ (∃ kind body, s.loop = .collecting kind body) ∧
      o.state.loop = .closed

/-- The move can be told from the line and the loop before and after it. -/
def Move.observed (line : String) (before after : Loop) : Move :=
  if (trim line).isEmpty then skip
  else
    match before, after with
    | .collecting .., _ => if endsLoop (trim line) then finish else collect
    | _, .collecting .. => start
    | _, _ => stay

theorem Move.Made.eq_observed {line : String} {s : State} {o : Outcome} {m : Move}
    (h : m.Made line s o) : m = observed line s.loop o.state.loop := by
  cases m with
  | skip => unfold observed; rw [if_pos h.1]
  | stay =>
      obtain ⟨hb, hs, ho⟩ := h
      simp [observed, hb, hs, ho]
  | start =>
      obtain ⟨hb, hs, x, kind, t, -, -, rfl, ht⟩ := h
      simp [observed, hb, hs, Outcome.state, ht]
  | collect =>
      obtain ⟨hb, he, kind, body, hs, -⟩ := h
      simp [observed, hb, he, hs]
  | finish =>
      obtain ⟨he, ⟨kind, body, hs⟩, -⟩ := h
      simp [observed, State.isEmpty_of_endsLoop he, he, hs]

end Loop

/-- Between two lines no loop is replaying, and after a failure none is open. -/
structure Outcome.Settled (o : Outcome) : Prop where
  loop : o.state.loop.Settled
  closed : ∀ e t, o = .error e t → t.loop = .closed

theorem Outcome.Settled.ok {t : State} (h : t.loop.Settled) : Outcome.Settled (.ok () t) :=
  ⟨h, fun _ _ he => nomatch he⟩

theorem Outcome.Settled.error {e : Failure} {t : State} (h : t.loop = .closed) :
    Outcome.Settled (.error e t) :=
  ⟨.inl h, fun _ _ he => by cases he; exact h⟩

theorem Outcome.Settled.of_closed {o : Outcome} (h : o.state.loop = .closed) : o.Settled := by
  cases o with
  | ok _ t => exact .ok (.inl h)
  | error e t => exact .error h

theorem Loop.Move.Made.settled {line : String} {s : State} {o : Outcome} {m : Loop.Move}
    (h : m.Made line s o) (hs : s.loop.Settled) : o.Settled := by
  cases m with
  | skip => rw [h.2]; exact .ok hs
  | stay => exact .of_closed h.2.2
  | start =>
      obtain ⟨-, -, x, kind, t, -, -, rfl, ht⟩ := h
      exact .ok (.inr ⟨kind, [], ht⟩)
  | collect =>
      obtain ⟨-, -, kind, body, -, rfl⟩ := h
      exact .ok (.inr ⟨kind, _, rfl⟩)
  | finish => exact .of_closed h.2.2

namespace Replay

theorem close_loop {world : World} {s : State} {kind : LoopKind} {lines : List String}
    (hl : s.loop = .collecting kind lines) : (Outcome.state (close world s)).loop = .closed := by
  rw [close_eq hl]
  cases passes world lines kind { s with loop := .replaying kind } with
  | ok | error => rfl

end Replay

namespace State

open Loop

theorem feed_made (world : World) (line : String) {s : State} (h : s.loop.Settled) :
    ∃ m : Move, m.Made line s (s.feed world line) := by
  cases hb : (trim line).isEmpty with
  | true => exact ⟨.skip, hb, feed_blank hb⟩
  | false =>
      rcases h with hl | ⟨kind, body, hl⟩
      · have hi : s.loop.isCollecting = false := by simp [hl, isCollecting]
        rw [feed_idle hb hi]
        rcases execute_cases world (trim line) hi with
          ⟨e, -, he⟩ | ⟨t, -, ht, he⟩ | ⟨x, kind, text, hx, hk, -, he⟩
        · exact ⟨.stay, hb, hl, by rw [he]; exact hl⟩
        · exact ⟨.stay, hb, hl, by rw [he]; exact ht.trans hl⟩
        · exact ⟨.start, hb, hl, x, kind, _, hx, hk, he, rfl⟩
      · cases he : endsLoop (trim line) with
        | true =>
            rw [feed_end hl he]
            exact ⟨.finish, he, ⟨kind, body, hl⟩, Replay.close_loop hl⟩
        | false => exact ⟨.collect, hb, he, kind, body, hl, feed_kept hb hl he⟩

theorem feed_settled (world : World) (line : String) {s : State} (h : s.loop.Settled) :
    Outcome.Settled (s.feed world line) := by
  obtain ⟨m, hm⟩ := feed_made world line h
  exact hm.settled h

theorem feedAll_settled (world : World) (lines : List String) {s : State} (h : s.loop.Settled) :
    Outcome.Settled (s.feedAll world lines) := by
  induction lines generalizing s with
  | nil => exact .ok h
  | cons line rest ih =>
      have hf := feed_settled world line h
      cases ho : feed world line s with
      | ok _ t =>
          rw [ho] at hf
          rw [feedAll_cons_ok ho]
          exact ih hf.loop
      | error e t =>
          rw [ho] at hf
          rwa [feedAll_cons_error ho]

theorem record_settled {x : Action Unit} {s : State} (h : Outcome.Settled (x s)) :
    Outcome.Settled (record x s) := by
  cases ho : x s with
  | ok _ t => rw [record_ok ho]; rwa [ho] at h
  | error e t => rw [record_error ho]; exact .error (h.closed e t ho)

end State

theorem LoopView.toLoop_settled (v : LoopView) : v.toLoop.Settled := by
  unfold toLoop
  split
  · cases v.kind? with
    | none => exact .inl rfl
    | some kind => exact .inr ⟨kind, v.bufferedLines, rfl⟩
  · exact .inl rfl

namespace Session

inductive Call where
  | run (source : String)
  | feed (line : String)
  | reset
  | restore (v : Snapshot)

def Call.apply (x : Session) : Call → Session
  | run source => (x.run source).session
  | feed line => (x.feed line).session
  | reset => x.reset
  | restore v => x.restore v

inductive Reachable : Session → Prop
  | new (world : World) : Reachable ⟨world, {}⟩
  | ofSnapshot (now : Instant) (v : Snapshot) : Reachable (ofSnapshot now v)
  | call (x : Session) (c : Call) (h : Reachable x) : Reachable (c.apply x)

theorem Reachable.settled {x : Session} (h : Reachable x) : x.state.loop.Settled := by
  induction h with
  | new world => exact .inl rfl
  | ofSnapshot now v => exact v.loop.toLoop_settled
  | call x c _ ih =>
      cases c with
      | run source =>
          have hs : { x.state with log := [] }.loop.Settled := ih
          rw [Call.apply, run_state]
          exact (State.record_settled (State.feedAll_settled _ _ hs)).loop
      | feed line =>
          rw [Call.apply, feed_state]
          exact (State.record_settled (State.feed_settled _ _ ih)).loop
      | reset => exact .inl rfl
      | restore v => exact v.loop.toLoop_settled

end Session

/-- In no session is a loop ever left replaying. Each line makes exactly one move, and whatever fails
leaves no loop open. -/
theorem loop_state_machine :
    (∀ x : Session, x.Reachable → x.state.loop.Settled) ∧
    (∀ (world : World) (line : String) (s : State), s.loop.Settled →
      ∃! m : Loop.Move, m.Made line s (s.feed world line)) ∧
    ∀ x : Session, x.Reachable →
      (∀ source e, (x.run source).result = .error e →
        (x.run source).session.state.loop = .closed) ∧
      ∀ line e, (x.feed line).result = .error e → (x.feed line).session.state.loop = .closed := by
  refine ⟨fun x h => h.settled, ?_, fun x h => ⟨?_, ?_⟩⟩
  · intro world line s h
    obtain ⟨m, hm⟩ := State.feed_made world line h
    exact ⟨m, hm, fun m' hm' => hm'.eq_observed.trans hm.eq_observed.symm⟩
  · intro source e he
    obtain ⟨t, ht, hs⟩ := Session.run_error he
    have hset : { x.state with log := [] }.loop.Settled := h.settled
    rw [hs]
    exact (State.feedAll_settled x.world (Text.scriptLines source) hset).closed e t ht
  · intro line e he
    obtain ⟨t, ht, hs⟩ := Session.feed_error he
    rw [hs]
    exact (State.feed_settled x.world line h.settled).closed e t ht

/-- A snapshot with a loop in it is restored, and the loop is ended. -/
theorem loop_state_machine_restored :
    cappedLoop.Reachable ∧ cappedLoop.state.loop.Settled ∧
      (∃! m : Loop.Move, m.Made "end" cappedLoop.state
        (cappedLoop.state.feed cappedLoop.world "end")) ∧
      (cappedLoop.feed "end").result = .error (.loopOverrun 0) ∧
      (cappedLoop.feed "end").session.state.loop = .closed := by
  have hr : cappedLoop.Reachable :=
    .call ⟨cappedLoop.world, {}⟩ (.restore (.capture cappedLoop.state)) (.new _)
  have hs := loop_state_machine.1 cappedLoop hr
  exact ⟨hr, hs, loop_state_machine.2.1 _ "end" _ hs, cappedLoop_feed_end.1,
    (loop_state_machine.2.2 cappedLoop hr).2 "end" _ cappedLoop_feed_end.1⟩

end SentenceScript
