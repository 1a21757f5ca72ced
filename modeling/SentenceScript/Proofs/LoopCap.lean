import SentenceScript.Proofs.Course
import SentenceScript.Proofs.WhileLoop

namespace SentenceScript

open SentenceScript.Action Text

/-- The world with another cap on the passes of a while loop. -/
def World.capped (world : World) (cap : Nat) : World :=
  { world with settings := { world.settings with maxPasses := cap } }

namespace Action

variable {α : Type} {x x' y y' : Action Unit}

/-- The second action does what the first does, unless that one runs into the cap of a loop. -/
def ExtendedBy (x y : Action Unit) : Prop :=
  ∀ s, (∃ n t, x s = .error (.loopOverrun n) t) ∨ y s = x s

theorem ExtendedBy.refl (x : Action Unit) : ExtendedBy x x := fun _ => .inr rfl

theorem ExtendedBy.seq (hx : ExtendedBy x x') (hy : ExtendedBy y y') :
    ExtendedBy (x >>= fun _ => y) (x' >>= fun _ => y') := by
  intro s
  rcases hx s with ⟨n, t, h⟩ | h
  · exact .inl ⟨n, t, bind_error h⟩
  · cases hr : x s with
    | ok _ t =>
        rw [bind_ok hr, bind_ok (h.trans hr)]
        exact hy t
    | error e t =>
        rw [bind_error hr, bind_error (h.trans hr)]
        exact .inr rfl

theorem forM_extendedBy {f g : α → Action Unit} (h : ∀ a, ExtendedBy (f a) (g a)) (l : List α) :
    ExtendedBy (l.forM f) (l.forM g) := by
  induction l with
  | nil => exact .refl _
  | cons a rest ih => exact (h a).seq ih

end Action

variable {world : World} {cap cap' : Nat}

namespace Sentence

/-- Outside loops the cap is not looked at. -/
theorem act_capped (cap : Nat) (finish : Action Unit) (sentence : Sentence) :
    sentence.act (world.capped cap) finish = sentence.act world finish := rfl

theorem execute_capped (cap : Nat) (finish : Action Unit) (line : String) :
    execute (world.capped cap) finish line = execute world finish line :=
  execute_world_congr fun sentence _ => act_capped cap finish sentence

theorem execute_extendedBy {finish finish' : Action Unit} (hf : ExtendedBy finish finish')
    (line : String) :
    ExtendedBy (execute world finish line) (execute world finish' line) := by
  intro s
  rcases execute_finish_or world line s with h | h
  · rw [h, h]
    exact hf s
  · exact .inr (h finish' finish)

end Sentence

namespace Replay

theorem body_capped (cap : Nat) (lines : List String) :
    body (world.capped cap) lines = body world lines := by
  have h : line (world.capped cap) = line world := funext (Sentence.execute_capped cap _)
  rw [body, body, h]

/-- The cap is looked at before the guard, so passes that are left over change nothing. -/
theorem guarded_extendedBy (guard : Guard) (lines : List String) {left left' : Nat}
    (h : left ≤ left') (i : Nat) :
    ExtendedBy (guarded (world.capped cap) guard lines left i)
      (guarded (world.capped cap') guard lines left' i) := by
  induction left generalizing left' i with
  | zero => exact fun s => .inl ⟨cap, s, rfl⟩
  | succ left ih =>
      obtain ⟨left', rfl⟩ : ∃ n, left' = n + 1 := Nat.exists_eq_add_one_of_ne_zero (by omega)
      intro s
      rw [guarded, guarded]
      cases hv : s.bindings.get? guard.subject with
      | none =>
          rw [bind_error (lookup_none hv), bind_error (lookup_none hv)]
          exact .inr rfl
      | some value =>
          rw [bind_ok (lookup_some hv), bind_ok (lookup_some hv), body_capped, body_capped]
          split
          · exact (ExtendedBy.refl _).seq ((ExtendedBy.refl _).seq (ih (by omega) (i + 1))) s
          · exact .inr rfl

theorem passes_extendedBy (world : World) (h : cap ≤ cap') (lines : List String)
    (kind : LoopKind) :
    ExtendedBy (passes (world.capped cap) lines kind) (passes (world.capped cap') lines kind) := by
  cases kind with
  | times count =>
      have hb : body (world.capped cap) lines = body (world.capped cap') lines := by
        rw [body_capped, body_capped]
      rw [passes, passes, counted_congr hb]
      exact .refl _
  | guarded guard => exact guarded_extendedBy guard lines h 1

theorem close_extendedBy (h : cap ≤ cap') :
    ExtendedBy (close (world.capped cap)) (close (world.capped cap')) := by
  intro s
  cases hl : s.loop with
  | closed | replaying =>
      have hi : s.loop.isCollecting = false := by rw [hl]; rfl
      rw [close_idle _ hi, close_idle _ hi]
      exact .inr rfl
  | collecting kind lines =>
      rw [close_eq hl, close_eq hl]
      rcases passes_extendedBy world h lines kind { s with loop := .replaying kind } with
        ⟨n, t, ht⟩ | ht
      · rw [ht]
        exact .inl ⟨n, _, rfl⟩
      · rw [ht]
        exact .inr rfl

end Replay

namespace State

theorem execute_extendedBy (h : cap ≤ cap') (line : String) :
    ExtendedBy (execute (world.capped cap) line) (execute (world.capped cap') line) := by
  rw [execute, execute, Sentence.execute_capped, Sentence.execute_capped]
  exact Sentence.execute_extendedBy (Replay.close_extendedBy h) line

theorem feed_extendedBy (h : cap ≤ cap') (line : String) :
    ExtendedBy (feed (world.capped cap) line) (feed (world.capped cap') line) := by
  intro s
  rcases feed_kept_or_executed line s with ⟨t, ht⟩ | hx
  · rw [ht, ht]
    exact .inr rfl
  · rw [hx, hx]
    exact execute_extendedBy h (trim line) s

theorem feedAll_extendedBy (h : cap ≤ cap') (lines : List String) :
    ExtendedBy (feedAll (world.capped cap) lines) (feedAll (world.capped cap') lines) :=
  forM_extendedBy (feed_extendedBy h) lines

theorem record_extendedBy {x y : Action Unit} (h : ExtendedBy x y) :
    ExtendedBy (record x) (record y) := by
  intro s
  rcases h s with ⟨n, t, ht⟩ | ht
  · exact .inl ⟨n, _, record_error ht⟩
  · cases hr : x s with
    | ok _ t => exact .inr ((record_ok (ht.trans hr)).trans (record_ok hr).symm)
    | error e t => exact .inr ((record_error (ht.trans hr)).trans (record_error hr).symm)

end State

namespace Session

/-- The second of two steps ends as the first does, unless that one overruns. -/
def Step.ExtendedBy {α : Type} (first second : Step α) : Prop :=
  (∃ n, first.result = .error (.loopOverrun n)) ∨
    second.result = first.result ∧ second.echoed = first.echoed ∧
      second.session.state = first.session.state

theorem step_extendedBy {α : Type} {x y : Action Unit} (h : Action.ExtendedBy x y) (s : State)
    (length : Nat) (result : State → α) :
    (step ⟨world.capped cap, s⟩ length (x s) result).ExtendedBy
      (step ⟨world.capped cap', s⟩ length (y s) result) := by
  rcases h s with ⟨n, t, ht⟩ | ht
  · left
    exact ⟨n, by rw [ht]; rfl⟩
  · right
    rw [ht]
    exact ⟨rfl, rfl, rfl⟩

theorem run_extendedBy (world : World) (h : cap ≤ cap') (s : State) (source : String) :
    (run ⟨world.capped cap, s⟩ source).ExtendedBy (run ⟨world.capped cap', s⟩ source) :=
  step_extendedBy (State.record_extendedBy (State.feedAll_extendedBy h _)) { s with log := [] } 0 _

theorem Turn.step_extendedBy (world : World) (h : cap ≤ cap') (s : State) (saved : List Snapshot)
    (turn : Turn) :
    (turn.step ⟨world.capped cap, s⟩ saved).ExtendedBy
      (turn.step ⟨world.capped cap', s⟩ saved) := by
  cases turn with
  | run source => exact run_extendedBy world h s source
  | feed line =>
      rw [step_feed, step_feed]
      exact Session.step_extendedBy (State.record_extendedBy (State.feed_extendedBy h line)) s _ _
  | reset | save => exact .inr ⟨rfl, rfl, rfl⟩
  | restore n =>
      refine .inr ⟨rfl, rfl, ?_⟩
      simp only [Turn.step]
      cases saved[n]? with
      | none => rfl
      | some v => rfl

/-- Two courses that differ in their caps: the first has overrun, or all is the same. -/
structure Course.Capped (world : World) (cap cap' : Nat) (c d : Course) : Prop where
  first : c.session.world = world.capped cap
  second : d.session.world = world.capped cap'
  same : (∃ n, .error (.loopOverrun n) ∈ c.results) ∨
    d.results = c.results ∧ d.saved = c.saved ∧ d.session.state = c.session.state

theorem Course.Capped.take (h : cap ≤ cap') {c d : Course} (hc : Capped world cap cap' c d)
    (turn : Turn) : Capped world cap cap' (c.take turn) (d.take turn) := by
  refine ⟨(turn.step_world _ _).trans hc.first, (turn.step_world _ _).trans hc.second, ?_⟩
  rcases hc.same with ⟨n, hn⟩ | ⟨hr, hs, ht⟩
  · exact .inl ⟨n, List.mem_append_left _ hn⟩
  · have hx : c.session = ⟨world.capped cap, c.session.state⟩ := by rw [← hc.first]
    have hy : d.session = ⟨world.capped cap', c.session.state⟩ := by rw [← hc.second, ← ht]
    have hsaves : turn.saves d.session d.saved = turn.saves c.session c.saved := by
      rw [hx, hy, hs]
      cases turn with
      | run | feed | reset | save | restore => rfl
    have hstep := turn.step_extendedBy world h c.session.state c.saved
    rw [← hx, ← hy, ← hs] at hstep
    rcases hstep with ⟨n, hn⟩ | ⟨hresult, -, hstate⟩
    · left
      refine ⟨n, List.mem_append_right _ ?_⟩
      rw [← hs, hn]
      exact List.mem_singleton.2 rfl
    · right
      simp only [Course.take, hr, hsaves, ← hs, hresult, hstate, and_self]

end Session

/-- A cap is only a safety net. Whatever does not overrun under it ends in the same way under any
greater one: a script from any state, and any turns of a session. -/
theorem greater_cap_changes_nothing (world : World) (cap cap' : Nat) (h : cap ≤ cap') (s : State) :
    (∀ source,
      let first := Session.run ⟨world.capped cap, s⟩ source
      let second := Session.run ⟨world.capped cap', s⟩ source
      (∀ n, first.result ≠ .error (.loopOverrun n)) →
        second.result = first.result ∧ second.echoed = first.echoed ∧
          second.session.state = first.session.state) ∧
    ∀ turns,
      let first := Session.Course.takeAll ⟨⟨world.capped cap, s⟩, [], []⟩ turns
      let second := Session.Course.takeAll ⟨⟨world.capped cap', s⟩, [], []⟩ turns
      (∀ n, .error (.loopOverrun n) ∉ first.results) →
        second.results = first.results ∧ second.saved = first.saved ∧
          second.session.state = first.session.state := by
  constructor
  · intro source first second hn
    rcases Session.run_extendedBy world h s source with ⟨n, he⟩ | hs
    · exact absurd he (hn n)
    · exact hs
  · intro turns first second hn
    have hstart : Session.Course.Capped world cap cap' ⟨⟨world.capped cap, s⟩, [], []⟩
        ⟨⟨world.capped cap', s⟩, [], []⟩ := ⟨rfl, rfl, .inr ⟨rfl, rfl, rfl⟩⟩
    have hcourse : Session.Course.Capped world cap cap' first second :=
      Session.Course.takeAll_related (fun c d turn hc => hc.take h turn) hstart turns
    rcases hcourse.same with ⟨n, he⟩ | hs
    · exact absurd he (hn n)
    · exact hs

/-- The lines of a loop that makes one pass. -/
def countdownLines : List String :=
  ["  Iteration 1: n = 1", "Subtracted 1 from n. New value: 0", "Loop finished!"]

theorem countdown_run (world : World) :
    (Session.run ⟨world.capped 2, countdown⟩ "end").result = .ok countdownLines := by
  let x : Session := ⟨world.capped 2, countdown⟩
  let done : State := { countdownDone with loop := .closed }.say "Loop finished!"
  have hclose : Replay.close (world.capped 2) countdown = .ok () done :=
    (Replay.close_ok_iff rfl).2 ⟨1, countdownDone, Nat.one_lt_two, (countdown_runs _).1,
      (countdown_runs _).2, by decide, rfl⟩
  have hfeed : State.feed (world.capped 2) "end" countdown = .ok () done :=
    (State.feed_end rfl (by decide)).trans hclose
  have hlines : scriptLines "end" = ["end"] := by decide
  have hall : State.feedAll x.world (scriptLines "end") { x.state with log := [] } =
      .ok () done := by
    rw [hlines]
    exact State.feedAll_singleton.trans hfeed
  have hrun := Session.run_ok hall
  rw [hrun]
  rfl

/-- One pass of two allowed, in a script and in a session that is reset after it. -/
theorem greater_cap_changes_nothing_countdown :
    let world : World := ⟨{}, Canned.services .epoch⟩
    let turns := [Session.Turn.run "end", .reset]
    (Session.run ⟨world.capped 2, countdown⟩ "end").result = .ok countdownLines ∧
      (Session.run ⟨world.capped 1000, countdown⟩ "end").result = .ok countdownLines ∧
      (Session.Course.takeAll ⟨⟨world.capped 1000, countdown⟩, [], []⟩ turns).results =
        [.ok countdownLines, .ok []] := by
  intro world turns
  have hrun := countdown_run world
  have hcourse : (Session.Course.takeAll ⟨⟨world.capped 2, countdown⟩, [], []⟩ turns).results =
      [.ok countdownLines, .ok []] := by
    simp only [turns, Session.Course.takeAll, List.foldl_cons, List.foldl_nil, Session.Course.take,
      Session.Turn.step, hrun, List.nil_append, List.cons_append]
  obtain ⟨hscript, hturns⟩ :=
    greater_cap_changes_nothing world 2 1000 (by decide) countdown
  refine ⟨hrun, (hscript "end" fun n hn => ?_).1.trans hrun,
    (hturns turns fun n hn => ?_).1.trans hcourse⟩
  · rw [hrun] at hn
    cases hn
  · rw [hcourse] at hn
    simp at hn

end SentenceScript
