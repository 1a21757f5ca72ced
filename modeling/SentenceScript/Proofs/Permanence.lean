import SentenceScript.Proofs.ServiceRecords

namespace SentenceScript

open SentenceScript.Action

namespace Task

theorem names_setStatus? {tasks tasks' : List Task} {name status : String}
    (h : setStatus? tasks name status = some tasks') : tasks'.map Task.name = tasks.map Task.name := by
  induction tasks generalizing tasks' with
  | nil => cases h
  | cons t rest ih =>
      rw [setStatus?] at h
      split at h
      · cases h; rfl
      · obtain ⟨rest', hr, rfl⟩ := Option.map_eq_some_iff.1 h
        rw [List.map_cons, List.map_cons, ih hr]

theorem status_setStatus? {tasks tasks' : List Task} {name status : String}
    (h : setStatus? tasks name status = some tasks') {i : Nat} {a b : Task}
    (ha : tasks[i]? = some a) (hb : tasks'[i]? = some b) :
    b.status = a.status ∨ b.status = status := by
  induction tasks generalizing tasks' i with
  | nil => cases h
  | cons t rest ih =>
      rw [setStatus?] at h
      split at h
      · cases h
        cases i with
        | zero => cases ha; cases hb; exact .inr rfl
        | succ i => cases ha.symm.trans hb; exact .inl rfl
      · obtain ⟨rest', hr, rfl⟩ := Option.map_eq_some_iff.1 h
        cases i with
        | zero => cases ha.symm.trans hb; exact .inl rfl
        | succ i => exact ih hr ha hb

end Task

theorem Outcome.failure_eq_some {o : Outcome} {e : Failure} :
    o.failure = some e ↔ ∃ t, o = .error e t := by
  cases o with
  | ok _ t => simp [failure]
  | error e' t => simp [failure]

namespace State

/-- The second state has all that was created in the first. Variables and tasks stay where they are
and new ones come behind them. No variable comes to be there twice, and a status changes only to
`complete`. -/
structure Grows (s t : State) : Prop where
  names : s.bindings.names <+: t.bindings.names
  unique : s.bindings.names.Nodup → t.bindings.names.Nodup
  tasks : s.tasks.map Task.name <+: t.tasks.map Task.name
  status : ∀ (i : Nat) (a b : Task), s.tasks[i]? = some a → t.tasks[i]? = some b →
    b.status = a.status ∨ b.status = "complete"

/-- The failures that a state rules out: those that miss something that is there. -/
def RulesOut (s : State) : Failure → Prop
  | .undefinedVariable name => name ∈ s.bindings.names
  | .taskNotFound name => name ∈ s.tasks.map Task.name
  | _ => False

/-- One state after another by lines alone, each in any world, and whether it fails or not. -/
inductive Follows (s : State) : State → Prop
  | refl : Follows s s
  | execute (t) (world : World) (line : String) (h : Follows s t) :
      Follows s (Outcome.state (t.execute world line))
  | feed (t) (world : World) (line : String) (h : Follows s t) :
      Follows s (Outcome.state (t.feed world line))

variable {services : Services} {world : World} {s t u : State} {e : Failure}

theorem Grows.of_eq (hb : t.bindings = s.bindings) (ht : t.tasks = s.tasks) : s.Grows t where
  names := by simp only [hb, List.prefix_rfl]
  unique h := by rwa [hb]
  tasks := by simp only [ht, List.prefix_rfl]
  status i a b ha hb := by
    rw [ht] at hb
    cases ha.symm.trans hb
    exact .inl rfl

theorem Grows.trans (h : s.Grows t) (h' : t.Grows u) : s.Grows u where
  names := h.names.trans h'.names
  unique hs := h'.unique (h.unique hs)
  tasks := h.tasks.trans h'.tasks
  status i a c ha hc := by
    -- The task is in the state between, since that one has as many tasks.
    have hlength : s.tasks.length ≤ t.tasks.length := by simpa using h.tasks.length_le
    have hi : i < t.tasks.length :=
      Nat.lt_of_lt_of_le (List.getElem?_eq_some_iff.1 ha).1 hlength
    have hb : t.tasks[i]? = some t.tasks[i] := List.getElem?_eq_getElem hi
    rcases h'.status i _ c hb hc with hbc | hbc
    · rw [hbc]
      exact h.status i a _ ha hb
    · exact .inr hbc

theorem Change.grows (h : s.Change services t) : s.Grows t := by
  cases h with
  | assign name value =>
      refine ⟨?_, fun hs => Bindings.put_nodup hs name value, List.prefix_rfl, ?_⟩
      · simp only [State.assign, Bindings.names_put]
        split
        · exact List.prefix_rfl
        · exact List.prefix_append _ _
      · exact (Grows.of_eq (t := s) rfl rfl).status
  | createTask task =>
      refine ⟨List.prefix_rfl, id, ?_, fun i a b ha hb => ?_⟩
      · rw [List.map_append]
        exact List.prefix_append _ _
      · have hi : i < s.tasks.length := (List.getElem?_eq_some_iff.1 ha).1
        rw [List.getElem?_append_left hi] at hb
        cases ha.symm.trans hb
        exact .inl rfl
  | completeTask name tasks h =>
      refine ⟨List.prefix_rfl, id, ?_, fun i a b ha hb => Task.status_setStatus? h ha hb⟩
      simp only [Task.names_setStatus? h, List.prefix_rfl]
  | connectApi | search | connect | disconnect | send | receive | setLoop | say =>
      exact .of_eq rfl rfl

theorem Becomes.grows (h : s.Becomes services t) : s.Grows t := by
  induction h with
  | refl => exact .of_eq rfl rfl
  | tail _ h ih => exact ih.trans h.grows

theorem Follows.grows (h : s.Follows t) : s.Grows t := by
  induction h with
  | refl => exact .of_eq rfl rfl
  | execute t world line h ih => exact ih.trans (Becomes.grows (execute_becomes line t))
  | feed t world line h ih => exact ih.trans (Becomes.grows (feed_becomes line t))

theorem Grows.rulesOut (h : s.Grows t) (he : s.RulesOut e) : t.RulesOut e := by
  cases e with
  | undefinedVariable name => exact h.names.subset he
  | taskNotFound name => exact h.tasks.subset he
  | _ => exact he.elim

theorem Refuses.not_rulesOut (h : s.Refuses e) : ¬ s.RulesOut e := by
  cases e with
  | undefinedVariable name => exact Bindings.get?_eq_none.1 h
  | taskNotFound name =>
      intro hm
      obtain ⟨task, ht, rfl⟩ := List.mem_map.1 hm
      exact h task ht rfl
  | _ => exact id

/-- A failure misses nothing that is there at last, so nothing that was there at any time before. -/
theorem failure_stepwise (world : World) :
    Outcome.Stepwise world fun _ o => ∀ e t, o = .error e t → ¬ t.RulesOut e where
  act {sentence} h finish s e t he := by
    rcases Sentence.act_plain world finish h s with ⟨_, u, -, hok⟩ | ⟨e', hr, herror⟩
    · cases he.symm.trans (hok s.loop [])
    · cases he.symm.trans (herror s.loop [])
      exact hr.not_rulesOut
  refl s e t he := by cases he
  say s line e t he := by cases he
  refuse h e t he := by
    cases he
    exact h.not_rulesOut
  overrun s e t he := by
    cases he
    exact id
  start h kind line e t he := by cases he
  finish {s kind lines o} hl h e t he := by
    cases o with
    | ok _ u => cases he
    | error _ u =>
        cases he
        exact h e u rfl
  trans _ h' := h'

theorem execute_failure {line : String} (h : s.execute world line = .error e t) : ¬ t.RulesOut e :=
  (failure_stepwise world).execute line s e t h

theorem feed_failure {line : String} (h : s.feed world line = .error e t) : ¬ t.RulesOut e :=
  (failure_stepwise world).feed (fun _ _ e t he => by cases he) line s e t h

theorem feedAll_failure {lines : List String} (h : s.feedAll world lines = .error e t) :
    ¬ t.RulesOut e :=
  (failure_stepwise world).feedAll (fun _ _ e t he => by cases he) lines s e t h

/-- A failure that a state rules out stays ruled out, so no line fails with it. -/
theorem execute_rulesOut (h : s.RulesOut e) (line : String) :
    Outcome.failure (s.execute world line) ≠ some e := by
  intro he
  obtain ⟨t, ht⟩ := Outcome.failure_eq_some.1 he
  have hgrows : s.Grows (Outcome.state (s.execute world line)) :=
    Becomes.grows (execute_becomes line s)
  rw [ht] at hgrows
  exact execute_failure ht (hgrows.rulesOut h)

theorem feed_rulesOut (h : s.RulesOut e) (line : String) :
    Outcome.failure (s.feed world line) ≠ some e := by
  intro he
  obtain ⟨t, ht⟩ := Outcome.failure_eq_some.1 he
  have hgrows : s.Grows (Outcome.state (s.feed world line)) := Becomes.grows (feed_becomes line s)
  rw [ht] at hgrows
  exact feed_failure ht (hgrows.rulesOut h)

theorem lookup_rulesOut (h : s.RulesOut e) (name : String) : s.lookup name ≠ .error e := by
  intro he
  cases hv : s.bindings.get? name with
  | some value => simp [lookup, hv] at he
  | none =>
      obtain rfl : Failure.undefinedVariable name = e := by simpa [lookup, hv] using he
      exact Bindings.get?_eq_none.1 hv h

end State

namespace Session

variable {x y : Session} {e : Failure}

theorem Continues.grows (h : x.Continues y) : x.state.Grows y.state := by
  induction h with
  | refl => exact .of_eq rfl rfl
  | run y source h ih =>
      have hempty : y.state.Grows { y.state with log := [] } := .of_eq rfl rfl
      exact (ih.trans hempty).trans (State.Becomes.grows (run_becomes y source))
  | feed y line h ih => exact ih.trans (State.Becomes.grows (feed_becomes y line))

theorem run_rulesOut (h : x.state.RulesOut e) (source : String) :
    (x.run source).result ≠ .error e := by
  intro he
  obtain ⟨t, ht, hs⟩ := run_error he
  have hgrows : { x.state with log := [] }.Grows (x.run source).session.state :=
    State.Becomes.grows (run_becomes x source)
  rw [hs] at hgrows
  exact State.feedAll_failure ht (hgrows.rulesOut h)

theorem feed_rulesOut (h : x.state.RulesOut e) (line : String) :
    (x.feed line).result ≠ .error e := by
  intro he
  obtain ⟨t, ht, -⟩ := feed_error he
  exact State.feed_rulesOut h line (Outcome.failure_eq_some.2 ⟨t, ht⟩)

end Session

/-- Every line, executed or fed and whether it fails or not, leaves the variables and the tasks that
there are, with at most some tasks completed. What fails for want of a variable or a task fails in a
state that has none of that name. So one that was there at any time before, in a row of lines or in a
session of scripts and lines, is never missed again. -/
theorem nothing_created_is_lost :
    (∀ (world : World) (line : String) (s : State),
      s.Grows (Outcome.state (s.execute world line)) ∧
        s.Grows (Outcome.state (s.feed world line))) ∧
    (∀ (world : World) (line : String) (s t : State) (e : Failure),
      s.execute world line = .error e t ∨ s.feed world line = .error e t → ¬ t.RulesOut e) ∧
    (∀ s t : State, s.Follows t → ∀ e, s.RulesOut e → ∀ (world : World) (line : String),
      Outcome.failure (t.execute world line) ≠ some e ∧
        Outcome.failure (t.feed world line) ≠ some e) ∧
    ∀ x y : Session, x.Continues y → ∀ e, x.state.RulesOut e →
      (∀ source, (y.run source).result ≠ .error e) ∧ (∀ line, (y.feed line).result ≠ .error e) ∧
        ∀ name, y.evaluate name ≠ .error e := by
  refine ⟨fun world line s => ⟨?_, ?_⟩, ?_, ?_, ?_⟩
  · exact State.Becomes.grows (State.execute_becomes line s)
  · exact State.Becomes.grows (State.feed_becomes line s)
  · intro world line s t e h
    rcases h with h | h
    · exact State.execute_failure h
    · exact State.feed_failure h
  · intro s t h e he world line
    have ht := h.grows.rulesOut he
    exact ⟨State.execute_rulesOut ht line, State.feed_rulesOut ht line⟩
  · intro x y h e he
    have hy := h.grows.rulesOut he
    exact ⟨Session.run_rulesOut hy, Session.feed_rulesOut hy, State.lookup_rulesOut hy⟩

/-- A loop whose first pass completes a task and then misses a variable. -/
def failingLoop : State :=
  { bindings := [("n", .number 1)], tasks := [⟨"t", "open"⟩]
    loop := .collecting (.times 2) ["mark task \"t\" as done", "show missing"] }

theorem failingLoop_feed_end (world : World) : failingLoop.feed world "end" =
    .error (.undefinedVariable "missing")
      { failingLoop with
        tasks := [⟨"t", "complete"⟩], loop := .closed
        log := ["  Iteration 1:", "Marked task \"t\" as complete"] } := by
  let s : State := { failingLoop with loop := .replaying (.times 2) }
  let t : State :=
    { s with
      tasks := [⟨"t", "complete"⟩]
      log := ["  Iteration 1:", "Marked task \"t\" as complete"] }
  have hmark : Replay.line world "mark task \"t\" as done" (s.say "  Iteration 1:") = .ok () t := by
    have hc : (Sentence.classify "mark task \"t\" as done").command = .completeTask "t" := by rfl
    rw [Replay.line, Sentence.execute_leaf _ _ (by simp [hc])]
    simp only [Sentence.act, hc]
    rfl
  have hshow : Replay.line world "show missing" t = .error (.undefinedVariable "missing") t := by
    have hc : (Sentence.classify "show missing").command = .showVariable "missing" := by rfl
    rw [Replay.line, Sentence.execute_leaf _ _ (by simp [hc])]
    simp only [Sentence.act, hc]
    rfl
  have hbody : Replay.body world ["mark task \"t\" as done", "show missing"]
      (s.say "  Iteration 1:") = .error (.undefinedVariable "missing") t :=
    (bind_ok hmark).trans (bind_error hshow)
  have hpasses : Replay.passes world ["mark task \"t\" as done", "show missing"] (.times 2) s =
      .error (.undefinedVariable "missing") t := by
    have hsay : say "  Iteration 1:" s = .ok () (s.say "  Iteration 1:") := rfl
    exact (bind_ok hsay).trans (bind_error hbody)
  rw [State.feed_end rfl (by decide), Replay.close_eq rfl, hpasses]
  rfl

/-- The task is completed by a loop that fails. It can be marked again, by the next line and in the
next script. -/
theorem nothing_created_is_lost_failing_loop :
    let x : Session := ⟨⟨{}, Canned.services .epoch⟩, failingLoop⟩
    let y := (x.feed "end").session
    (x.feed "end").result = .error (.undefinedVariable "missing") ∧
      failingLoop.RulesOut (.taskNotFound "t") ∧
      y.state.tasks = [⟨"t", "complete"⟩] ∧
      (y.feed "mark task \"t\" as done").result ≠ .error (.taskNotFound "t") ∧
      (y.run "mark task \"t\" as done").result ≠ .error (.taskNotFound "t") ∧
      Outcome.failure ((Outcome.state (failingLoop.feed x.world "end")).execute x.world
        "mark task \"t\" as done") ≠ some (.taskNotFound "t") := by
  intro x y
  have hend := State.record_error (failingLoop_feed_end x.world)
  have hout : failingLoop.RulesOut (.taskNotFound "t") := by simp [State.RulesOut, failingLoop]
  obtain ⟨-, -, hlines, hsessions⟩ := nothing_created_is_lost
  obtain ⟨hrun, hfeed, -⟩ := hsessions x y (.feed _ _ .refl) _ hout
  refine ⟨?_, hout, ?_, hfeed _, hrun _, (hlines _ _ (.feed _ _ _ .refl) _ hout _ _).1⟩
  · rw [Session.feed, hend]
    rfl
  · simp only [y, Session.feed_state]
    rw [hend]
    rfl

end SentenceScript
