import SentenceScript.Proofs.Feeding

namespace SentenceScript

namespace State

open Sentence

/-- What a line can do where no loop is collected: fail and change nothing, leave the loop as it is,
or open one. -/
theorem execute_cases (world : World) (line : String) {s : State}
    (h : s.loop.isCollecting = false) :
    (∃ e, s.Refuses e ∧ execute world line s = .error e s) ∨
      (∃ t, s.Keeps t ∧ t.loop = s.loop ∧ execute world line s = .ok () t) ∨
      ∃ sentence kind announcement, Reaches s line sentence ∧ sentence.command.opens? = some kind ∧
        s.loop = .closed ∧ execute world line s =
          .ok () ({ s with loop := .collecting kind [] }.say announcement) := by
  rcases Sentence.execute_cases line s with ⟨x, hx, he⟩ | he | ⟨e, hr, he⟩
  · -- Headers and the end of a loop are the only sentences that see which loop there is.
    by_cases hl : x.command.HandlesLoop
    · rcases hl with hl | hl
      · obtain ⟨kind, hk⟩ := Option.isSome_iff_exists.1 hl
        rcases act_header world (Replay.close world) hk s with ⟨text, hc, ha⟩ | ⟨active, -, ha⟩
        · exact .inr (.inr ⟨x, kind, text, hx, hk, hc, (he _ _).trans ha⟩)
        · exact .inl ⟨.loopAlreadyOpen active.name, trivial, (he _ _).trans ha⟩
      · refine .inl ⟨.noActiveLoop, trivial, ?_⟩
        rw [execute, he, act_eq_finish hl, Replay.close_idle world h]
    · rcases act_plain world (Replay.close world) hl s with ⟨_, t, hk, ha⟩ | ⟨e, hr, ha⟩
      · exact .inr (.inl ⟨t.within s.loop [], hk, rfl, (he _ _).trans (ha s.loop [])⟩)
      · exact .inl ⟨e, hr, (he _ _).trans (ha s.loop [])⟩
  · exact .inr (.inl ⟨s, .refl s, rfl, he _ _⟩)
  · exact .inl ⟨e, hr, he _ _⟩

theorem execute_error {world : World} {line : String} {s t : State} {e : Failure}
    (h : s.loop.isCollecting = false) (he : execute world line s = .error e t) :
    t = s ∧ s.Refuses e := by
  rcases execute_cases world line h with ⟨e', hr, h'⟩ | ⟨u, -, -, h'⟩ | ⟨x, kind, text, -, -, -, h'⟩
  · cases he.symm.trans h'; exact ⟨rfl, hr⟩
  · cases he.symm.trans h'
  · cases he.symm.trans h'

theorem feed_error_idle {world : World} {line : String} {s t : State} {e : Failure}
    (h : s.loop.isCollecting = false) (he : feed world line s = .error e t) : t = s := by
  cases hb : (Text.trim line).isEmpty with
  | true => cases (feed_blank hb).symm.trans he
  | false => exact (execute_error h ((feed_idle hb h).symm.trans he)).1

theorem feed_error_collecting {world : World} {line : String} {s t : State} {e : Failure}
    (h : s.loop.isCollecting = true) (he : feed world line s = .error e t) :
    endsLoop (Text.trim line) = true := by
  cases hl : s.loop with
  | closed | replaying => simp [hl, Loop.isCollecting] at h
  | collecting kind lines =>
      cases hb : (Text.trim line).isEmpty with
      | true => cases (feed_blank hb).symm.trans he
      | false =>
          cases hend : endsLoop (Text.trim line) with
          | true => rfl
          | false => cases (feed_kept hb hl hend).symm.trans he

end State

/-- A line that fails where no loop is collected changes nothing, whatever order its lookups, calls
and writes come in. So a session then gains one line in its log and nothing else, and the one kind of
line that can fail with more behind it is the end of the loop collected. -/
theorem failure_changes_nothing :
    (∀ (world : World) (line : String) (s t : State) (e : Failure),
      s.loop.isCollecting = false → s.execute world line = .error e t → t = s) ∧
    (∀ (x : Session) (line : String) (e : Failure), x.state.loop.isCollecting = false →
      (x.feed line).result = .error e →
      (x.feed line).session = { x with state := x.state.say ("Error: " ++ e.message) }) ∧
    ∀ (x : Session) (line : String) (e : Failure), (x.feed line).result = .error e →
      (x.feed line).session.state ≠ x.state.say ("Error: " ++ e.message) →
      x.state.loop.isCollecting = true ∧ endsLoop (Text.trim line) = true := by
  refine ⟨fun world line s t e h he => (State.execute_error h he).1, ?_, ?_⟩
  · intro x line e h hr
    obtain ⟨t, ht, hs⟩ := Session.feed_error hr
    rw [hs, State.feed_error_idle h ht]
  · intro x line e hr hne
    obtain ⟨t, ht, hs⟩ := Session.feed_error hr
    cases h : x.state.loop.isCollecting with
    | true => exact ⟨rfl, State.feed_error_collecting h ht⟩
    | false =>
        rw [hs, State.feed_error_idle h ht] at hne
        exact absurd rfl hne

def equalTexts : State := { bindings := [("a", .text "v"), ("b", .text "v")], log := ["Hello"] }

def cappedLoop : Session :=
  ⟨⟨{ maxPasses := 0 }, Canned.services .epoch⟩,
    { loop := .collecting (.guarded ⟨"a", .above, 0⟩) ["show a"] }⟩

theorem cappedLoop_feed_end :
    (cappedLoop.feed "end").result = .error (.loopOverrun 0) ∧
      (cappedLoop.feed "end").session.state.loop = .closed := by
  have hl : State.feed cappedLoop.world "end" cappedLoop.state =
      .error (.loopOverrun 0) { cappedLoop.state with loop := .closed } := by
    rw [State.feed_end rfl (by decide), Replay.close_eq rfl]
    rfl
  rw [Session.feed, State.record_error hl]
  exact ⟨rfl, rfl⟩

theorem execute_missing_task (world : World) :
    equalTexts.execute world "if a is equal to b, mark task \"t\" as done" =
      .error (.taskNotFound "t") equalTexts := by
  have hc : (Sentence.classify "if a is equal to b, mark task \"t\" as done").command =
      .conditional ⟨"a", .equalTo, .named "b"⟩ "mark task \"t\" as done" none := by rfl
  have hy : (Sentence.classify "mark task \"t\" as done").command = .completeTask "t" := by rfl
  rw [State.execute, Sentence.execute_conditional _ _ hc,
    Sentence.execute_leaf _ _ (by rw [hy]; simp)]
  rfl

/-- A clause that asks for a task that is not there, and a loop whose cap is zero. -/
theorem failure_changes_nothing_clause_and_cap :
    ((⟨⟨{}, Canned.services .epoch⟩, equalTexts⟩ : Session).feed
        "if a is equal to b, mark task \"t\" as done").session =
      ⟨⟨{}, Canned.services .epoch⟩,
        equalTexts.say "Error: Task \"t\" not found. Check the name and try again."⟩ ∧
    (cappedLoop.feed "end").result = .error (.loopOverrun 0) ∧
    (cappedLoop.state.loop.isCollecting = true ∧ endsLoop (Text.trim "end") = true) := by
  have hf (world : World) :
      State.feed world "if a is equal to b, mark task \"t\" as done" equalTexts =
        .error (.taskNotFound "t") equalTexts := by
    rw [State.feed_idle (by decide) (by decide)]
    exact execute_missing_task world
  have hr : ((⟨⟨{}, Canned.services .epoch⟩, equalTexts⟩ : Session).feed
      "if a is equal to b, mark task \"t\" as done").result = .error (.taskNotFound "t") := by
    rw [Session.feed, State.record_error (hf _)]; rfl
  have hx := cappedLoop_feed_end
  refine ⟨failure_changes_nothing.2.1 _ _ _ rfl hr, hx.1,
    failure_changes_nothing.2.2 cappedLoop "end" _ hx.1 fun h => ?_⟩
  have hloop := congrArg State.loop h
  rw [hx.2] at hloop
  cases hloop

end SentenceScript
