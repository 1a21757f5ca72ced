import SentenceScript.Proofs.Atomicity

namespace SentenceScript

open SentenceScript.Action

/-- Whether the guard holds. There is no answer where its variable is not there. -/
def Guard.holds? (guard : Guard) (s : State) : Option Bool :=
  (s.bindings.get? guard.subject).map fun value =>
    guard.comparison.holds value (.number guard.threshold)

theorem Guard.holds?_eq_some {guard : Guard} {s : State} {b : Bool} :
    guard.holds? s = some b ↔ ∃ value, s.bindings.get? guard.subject = some value ∧
      guard.comparison.holds value (.number guard.threshold) = b :=
  Option.map_eq_some_iff

theorem Guard.holds?_eq_none {guard : Guard} {s : State} :
    guard.holds? s = none ↔ s.bindings.get? guard.subject = none :=
  Option.map_eq_none_iff

namespace State

variable {world : World} {lines : List String} {kind : LoopKind} {s t : State} {e : Failure}

def executeAll (world : World) (lines : List String) : Action Unit := lines.forM (execute world)

/-- The first of the lines to fail is reached in the state `t`, which it leaves as it is. -/
def FailsIn (world : World) (lines : List String) (s : State) (e : Failure) (t : State) : Prop :=
  ∃ before line rest, lines = before ++ line :: rest ∧
    s.executeAll world before = .ok () t ∧ t.execute world line = .error e t

/-- In a loop that is replayed no line can open or end one. -/
theorem execute_replaying (world : World) (line : String) (h : s.loop = .replaying kind) :
    (∃ e, s.Refuses e ∧ s.execute world line = .error e s) ∨
      ∃ t, s.Keeps t ∧ t.loop = s.loop ∧ s.execute world line = .ok () t := by
  rcases execute_cases world line (s := s) (by rw [h]; rfl) with he | ht | ⟨x, k, text, -, -, hc, -⟩
  · exact .inl he
  · exact .inr ht
  · cases hc.symm.trans h

theorem FailsIn.executeAll (h : FailsIn world lines s e t) :
    s.executeAll world lines = .error e t := by
  obtain ⟨before, line, rest, rfl, hb, he⟩ := h
  rw [State.executeAll, forM_append]
  exact (bind_ok hb).trans (bind_error he)

theorem executeAll_cases (world : World) (lines : List String) (h : s.loop = .replaying kind) :
    (∃ t, s.Keeps t ∧ t.loop = s.loop ∧ s.executeAll world lines = .ok () t) ∨
      ∃ e t, s.Keeps t ∧ t.Refuses e ∧ FailsIn world lines s e t := by
  induction lines generalizing s with
  | nil => exact .inl ⟨s, .refl s, rfl, rfl⟩
  | cons line rest ih =>
      rcases execute_replaying world line h with ⟨e, hr, he⟩ | ⟨t, hk, hl, ht⟩
      · exact .inr ⟨e, s, .refl s, hr, [], line, rest, rfl, rfl, he⟩
      · rcases ih (hl.trans h) with
          ⟨u, hk', hl', hu⟩ | ⟨e, u, hk', hr, before, line', rest', rfl, hb, he⟩
        · exact .inl ⟨u, hk.trans hk', hl'.trans hl, (bind_ok ht).trans hu⟩
        · exact .inr ⟨e, u, hk.trans hk', hr, line :: before, line', rest', rfl,
            (bind_ok ht).trans hb, he⟩

end State

namespace Replay

variable {world : World} {guard : Guard} {lines : List String} {kind : LoopKind} {s t u : State}
  {value : Value} {left i k : Nat}

theorem body_eq_executeAll (world : World) (lines : List String) (h : s.loop = .replaying kind) :
    body world lines s = s.executeAll world lines := by
  induction lines generalizing s with
  | nil => rfl
  | cons line rest ih =>
      have hx := line_eq_execute world line (s := s) (by rw [h]; rfl)
      rw [body, State.executeAll, forM_cons, forM_cons]
      rcases State.execute_replaying world line h with ⟨e, -, he⟩ | ⟨t, -, hl, ht⟩
      · rw [bind_error (hx.trans he), bind_error he]
      · rw [bind_ok (hx.trans ht), bind_ok ht]
        exact ih (hl.trans h)

theorem guarded_unbound (h : guard.holds? t = none) :
    guarded world guard lines (left + 1) i t = .error (.undefinedVariable guard.subject) t :=
  bind_error (lookup_none (Guard.holds?_eq_none.1 h))

theorem guarded_done (h : guard.holds? t = some false) :
    guarded world guard lines (left + 1) i t = .ok () t := by
  obtain ⟨value, hv, hh⟩ := Guard.holds?_eq_some.1 h
  rw [guarded, bind_ok (lookup_some hv), if_neg (by simp [hh])]
  rfl

theorem guarded_pass (hv : t.bindings.get? guard.subject = some value)
    (h : guard.holds? t = some true) :
    guarded world guard lines (left + 1) i t =
      (body world lines >>= fun _ => guarded world guard lines left (i + 1))
        (t.say (announce guard i value)) := by
  obtain ⟨value', hv', hh⟩ := Guard.holds?_eq_some.1 h
  cases hv.symm.trans hv'
  rw [guarded, bind_ok (lookup_some hv), if_pos hh]
  rfl

/-- The state after `i` passes from `s`, with no look at the guard. There is none once a pass has
failed, or has no value to announce. -/
def stateAfter (world : World) (guard : Guard) (lines : List String) (s : State) :
    Nat → Option State
  | 0 => some s
  | i + 1 => do
      let t ← stateAfter world guard lines s i
      let value ← t.bindings.get? guard.subject
      match (t.say (announce guard (i + 1) value)).executeAll world lines with
      | .ok _ u => some u
      | .error _ _ => none

theorem stateAfter_succ_ok (ht : stateAfter world guard lines s i = some t)
    (hv : t.bindings.get? guard.subject = some value)
    (hu : (t.say (announce guard (i + 1) value)).executeAll world lines = .ok () u) :
    stateAfter world guard lines s (i + 1) = some u := by
  simp only [stateAfter, ht, hv, hu, Option.bind_eq_bind, Option.bind_some]

theorem stateAfter_succ_inv (h : stateAfter world guard lines s (i + 1) = some u) :
    ∃ t value, stateAfter world guard lines s i = some t ∧
      t.bindings.get? guard.subject = some value ∧
      (t.say (announce guard (i + 1) value)).executeAll world lines = .ok () u := by
  simp only [stateAfter, Option.bind_eq_bind, Option.bind_eq_some_iff] at h
  obtain ⟨t, ht, value, hv, h⟩ := h
  refine ⟨t, value, ht, hv, ?_⟩
  split at h
  · next hu => cases h; exact hu
  · cases h

theorem stateAfter_keeps (hs : s.loop = .replaying kind)
    (h : stateAfter world guard lines s i = some t) : t.loop = .replaying kind ∧ s.Keeps t := by
  induction i generalizing t with
  | zero => cases h; exact ⟨hs, .refl s⟩
  | succ i ih =>
      obtain ⟨u, value, hu, -, hx⟩ := stateAfter_succ_inv h
      obtain ⟨hl, hk⟩ := ih hu
      rcases State.executeAll_cases world lines (s := u.say (announce guard (i + 1) value)) hl with
        ⟨t', hk', hl', ht⟩ | ⟨e, t', -, -, hf⟩
      · cases hx.symm.trans ht
        exact ⟨hl'.trans hl, hk.trans hk'⟩
      · cases hx.symm.trans hf.executeAll

theorem body_stateAfter (hs : s.loop = .replaying kind)
    (h : stateAfter world guard lines s i = some t) (text : String) :
    body world lines (t.say text) = (t.say text).executeAll world lines :=
  body_eq_executeAll world lines (stateAfter_keeps hs h).1

/-- The guard holds before each of the first `k` passes, and each of them succeeds. -/
def Runs (world : World) (guard : Guard) (lines : List String) (s : State) (k : Nat) : Prop :=
  ∀ i < k, (∃ t, stateAfter world guard lines s i = some t ∧ guard.holds? t = some true) ∧
    (stateAfter world guard lines s (i + 1)).isSome

theorem Runs.zero : Runs world guard lines s 0 := fun i hi => absurd hi (Nat.not_lt_zero i)

theorem Runs.succ (h : Runs world guard lines s k) (ht : stateAfter world guard lines s k = some t)
    (hg : guard.holds? t = some true) (hu : stateAfter world guard lines s (k + 1) = some u) :
    Runs world guard lines s (k + 1) := by
  intro i hi
  rcases Nat.lt_succ_iff_lt_or_eq.1 hi with hi | rfl
  · exact h i hi
  · exact ⟨⟨t, ht, hg⟩, by simp [hu]⟩

theorem Runs.guarded_eq (hs : s.loop = .replaying kind) (h : Runs world guard lines s k)
    (ht : stateAfter world guard lines s k = some t) (left : Nat) :
    guarded world guard lines (left + k) 1 s = guarded world guard lines left (k + 1) t := by
  induction k generalizing t left with
  | zero => cases ht; rfl
  | succ k ih =>
      obtain ⟨u, value, hu, hv, hx⟩ := stateAfter_succ_inv ht
      -- The guard was looked at in the very state that the last pass starts from.
      obtain ⟨⟨u', hu', hg⟩, -⟩ := h k (Nat.lt_succ_self k)
      cases hu.symm.trans hu'
      have hb := body_stateAfter hs hu (announce guard (k + 1) value)
      have hstep := ih (fun i hi => h i (Nat.lt_succ_of_lt hi)) hu (left + 1)
      rw [← Nat.add_assoc, Nat.add_right_comm, hstep, guarded_pass hv hg, bind_ok (hb.trans hx)]

/-- What ends a run after `k` passes, out of at most `cap`, in the state `t`. -/
inductive Ending (world : World) (guard : Guard) (lines : List String) (cap : Nat) :
    Nat → State → Outcome → Prop
  | overrun {t : State} :
      Ending world guard lines cap cap t (.error (.loopOverrun world.settings.maxPasses) t)
  | unbound {k : Nat} {t : State} (hk : k < cap) (hg : guard.holds? t = none) :
      Ending world guard lines cap k t (.error (.undefinedVariable guard.subject) t)
  | done {k : Nat} {t : State} (hk : k < cap) (hg : guard.holds? t = some false) :
      Ending world guard lines cap k t (.ok () t)
  | failed {k : Nat} {t u : State} {value : Value} {e : Failure} (hk : k < cap)
      (hg : guard.holds? t = some true) (hv : t.bindings.get? guard.subject = some value)
      (hf : (t.say (announce guard (k + 1) value)).FailsIn world lines e u) :
      Ending world guard lines cap k t (.error e u)

theorem Ending.guarded_eq {cap : Nat} {o : Outcome} (hs : s.loop = .replaying kind)
    (hr : Runs world guard lines s k) (ht : stateAfter world guard lines s k = some t)
    (h : Ending world guard lines cap k t o) : guarded world guard lines cap 1 s = o := by
  have hrun (left : Nat) (hc : left + k = cap) :
      guarded world guard lines cap 1 s = guarded world guard lines left (k + 1) t := by
    rw [← hc]; exact hr.guarded_eq hs ht left
  cases h with
  | overrun => rw [hrun 0 (Nat.zero_add _)]; rfl
  | unbound hk hg => rw [hrun (cap - (k + 1) + 1) (by omega), guarded_unbound hg]
  | done hk hg => rw [hrun (cap - (k + 1) + 1) (by omega), guarded_done hg]
  | failed hk hg hv hf =>
      rw [hrun (cap - (k + 1) + 1) (by omega), guarded_pass hv hg,
        bind_error ((body_stateAfter hs ht _).trans hf.executeAll)]

theorem exists_ending (world : World) (guard : Guard) (lines : List String) (s : State)
    (hs : s.loop = .replaying kind) (cap : Nat) :
    ∃ k t o, Runs world guard lines s k ∧ stateAfter world guard lines s k = some t ∧
      Ending world guard lines cap k t o := by
  induction cap with
  | zero => exact ⟨0, s, _, .zero, rfl, .overrun⟩
  | succ cap ih =>
      obtain ⟨k, t, o, hr, ht, h⟩ := ih
      cases h with
      | unbound hk hg => exact ⟨k, t, _, hr, ht, .unbound (Nat.lt_succ_of_lt hk) hg⟩
      | done hk hg => exact ⟨k, t, _, hr, ht, .done (Nat.lt_succ_of_lt hk) hg⟩
      | failed hk hg hv hf =>
          exact ⟨k, t, _, hr, ht, .failed (Nat.lt_succ_of_lt hk) hg hv hf⟩
      | overrun =>
          -- One pass more is allowed, so the guard is looked at once more.
          cases hg : guard.holds? t with
          | none => exact ⟨cap, t, _, hr, ht, .unbound (Nat.lt_succ_self cap) hg⟩
          | some b =>
              cases b with
              | false => exact ⟨cap, t, _, hr, ht, .done (Nat.lt_succ_self cap) hg⟩
              | true =>
                  obtain ⟨value, hv, -⟩ := Guard.holds?_eq_some.1 hg
                  rcases State.executeAll_cases world lines
                    (s := t.say (announce guard (cap + 1) value)) (stateAfter_keeps hs ht).1 with
                    ⟨u, -, -, hu⟩ | ⟨e, u, -, -, hf⟩
                  · have hu := stateAfter_succ_ok ht hv hu
                    exact ⟨cap + 1, u, _, hr.succ ht hg hu, hu, .overrun⟩
                  · exact ⟨cap, t, _, hr, ht, .failed (Nat.lt_succ_self cap) hg hv hf⟩

/-- The guard finds its variable missing before the first pass or never. -/
theorem Runs.eq_zero_of_unbound (hs : s.loop = .replaying kind) (h : Runs world guard lines s k)
    (ht : stateAfter world guard lines s k = some t) (hg : guard.holds? t = none) : k = 0 := by
  cases k with
  | zero => rfl
  | succ k =>
      obtain ⟨⟨u, hu, hg'⟩, -⟩ := h 0 (Nat.succ_pos k)
      cases hu
      obtain ⟨value, hv, -⟩ := Guard.holds?_eq_some.1 hg'
      have hk := (stateAfter_keeps hs ht).2 guard.subject (by simp [hv])
      simp [Guard.holds?_eq_none.1 hg] at hk

/-- A line of a body never misses the variable of the guard, and never overruns. -/
theorem failure_of_failsIn {e : Failure} (hs : t.loop = .replaying kind)
    (hv : t.bindings.get? guard.subject = some value) {text : String}
    (hf : (t.say text).FailsIn world lines e u) :
    e ≠ .undefinedVariable guard.subject ∧ ∀ n, e ≠ .loopOverrun n := by
  rcases State.executeAll_cases world lines (s := t.say text) hs with
    ⟨u', -, -, hu⟩ | ⟨e', u', hk, hr, hf'⟩
  · cases hf.executeAll.symm.trans hu
  · cases hf.executeAll.symm.trans hf'.executeAll
    refine ⟨?_, ?_⟩
    · rintro rfl
      -- The guard has found the variable, and the lines before the failing one keep it.
      have hb := hk guard.subject (by simp [State.say, hv])
      rw [show u.bindings.get? guard.subject = none from hr] at hb
      cases hb
    · rintro n rfl
      exact hr

theorem Ending.close_eq {o : Outcome} (h : s.loop = .collecting (.guarded guard) lines)
    (hr : Runs world guard lines { s with loop := .replaying (.guarded guard) } k)
    (ht : stateAfter world guard lines { s with loop := .replaying (.guarded guard) } k = some t)
    (hend : Ending world guard lines world.settings.maxPasses k t o) :
    close world s = o.finishLoop := by
  rw [Replay.close_eq h]
  exact congrArg Outcome.finishLoop (hend.guarded_eq rfl hr ht)

theorem exists_close_ending (world : World) (h : s.loop = .collecting (.guarded guard) lines) :
    ∃ k t o, Runs world guard lines { s with loop := .replaying (.guarded guard) } k ∧
      stateAfter world guard lines { s with loop := .replaying (.guarded guard) } k = some t ∧
      Ending world guard lines world.settings.maxPasses k t o ∧ close world s = o.finishLoop := by
  obtain ⟨k, t, o, hr, ht, hend⟩ := exists_ending world guard lines
    { s with loop := .replaying (.guarded guard) } rfl world.settings.maxPasses
  exact ⟨k, t, o, hr, ht, hend, hend.close_eq h hr ht⟩

section Close

variable (h : s.loop = .collecting (.guarded guard) lines)
include h

theorem close_ok_iff :
    close world s = .ok () u ↔
      ∃ k t, k < world.settings.maxPasses ∧
        Runs world guard lines { s with loop := .replaying (.guarded guard) } k ∧
        stateAfter world guard lines { s with loop := .replaying (.guarded guard) } k = some t ∧
        guard.holds? t = some false ∧ u = { t with loop := .closed }.say "Loop finished!" := by
  constructor
  · intro hu
    obtain ⟨k, t, o, hr, ht, hend, hc⟩ := exists_close_ending world h
    rw [hc] at hu
    cases hend with
    | done hk hg => cases hu; exact ⟨k, t, hk, hr, ht, hg, rfl⟩
    | overrun | unbound | failed => cases hu
  · rintro ⟨k, t, hk, hr, ht, hg, rfl⟩
    exact Ending.close_eq h hr ht (.done hk hg)

theorem close_overrun_iff {n : Nat} :
    close world s = .error (.loopOverrun n) u ↔
      n = world.settings.maxPasses ∧
        Runs world guard lines { s with loop := .replaying (.guarded guard) } n ∧
        ∃ t, stateAfter world guard lines { s with loop := .replaying (.guarded guard) } n =
          some t ∧ u = { t with loop := .closed } := by
  constructor
  · intro hu
    obtain ⟨k, t, o, hr, ht, hend, hc⟩ := exists_close_ending world h
    rw [hc] at hu
    cases hend with
    | overrun => cases hu; exact ⟨rfl, hr, t, ht, rfl⟩
    | unbound | done => cases hu
    | failed hk hg hv hf =>
        cases hu
        exact absurd rfl ((failure_of_failsIn (stateAfter_keeps rfl ht).1 hv hf).2 n)
  · rintro ⟨rfl, hr, t, ht, rfl⟩
    exact Ending.close_eq h hr ht .overrun

theorem close_error_iff {e : Failure} :
    (close world s = .error e u ∧ ∀ n, e ≠ .loopOverrun n) ↔
      (e = .undefinedVariable guard.subject ∧ 0 < world.settings.maxPasses ∧
        guard.holds? s = none ∧ u = { s with loop := .closed }) ∨
      (e ≠ .undefinedVariable guard.subject ∧ ∃ k t value w, k < world.settings.maxPasses ∧
        Runs world guard lines { s with loop := .replaying (.guarded guard) } k ∧
        stateAfter world guard lines { s with loop := .replaying (.guarded guard) } k = some t ∧
        guard.holds? t = some true ∧ t.bindings.get? guard.subject = some value ∧
        (t.say (announce guard (k + 1) value)).FailsIn world lines e w ∧
        u = { w with loop := .closed }) := by
  constructor
  · rintro ⟨hu, hn⟩
    obtain ⟨k, t, o, hr, ht, hend, hc⟩ := exists_close_ending world h
    rw [hc] at hu
    cases hend with
    | done => cases hu
    | overrun => cases hu; exact absurd rfl (hn _)
    | unbound hk hg =>
        obtain rfl := hr.eq_zero_of_unbound rfl ht hg
        cases ht
        cases hu
        exact .inl ⟨rfl, hk, hg, rfl⟩
    | failed hk hg hv hf =>
        cases hu
        exact .inr ⟨(failure_of_failsIn (stateAfter_keeps rfl ht).1 hv hf).1,
          k, t, _, _, hk, hr, ht, hg, hv, hf, rfl⟩
  · rintro (⟨rfl, hk, hg, rfl⟩ | ⟨-, k, t, value, w, hk, hr, ht, hg, hv, hf, rfl⟩)
    · exact ⟨Ending.close_eq h .zero rfl (.unbound hk hg), nofun⟩
    · exact ⟨Ending.close_eq h hr ht (.failed hk hg hv hf),
        (failure_of_failsIn (stateAfter_keeps rfl ht).1 hv hf).2⟩

end Close

end Replay

/-- What a while loop does at its end, by the states `after i` that its passes go through. It succeeds
where the guard first fails, if that is before the cap, and overruns after as many passes as the cap
allows, with no look at the guard. Else its variable was missing from the start or a line of the body
failed, and the state is that of the failure. -/
theorem while_loop_meaning (world : World) (guard : Guard) (lines : List String) (s : State)
    (h : s.loop = .collecting (.guarded guard) lines) :
    let cap := world.settings.maxPasses
    let start : State := { s with loop := .replaying (.guarded guard) }
    let after := Replay.stateAfter world guard lines start
    let Runs := Replay.Runs world guard lines start
    (∀ line, endsLoop (Text.trim line) = true → s.feed world line = Replay.close world s) ∧
    (∀ u, Replay.close world s = .ok () u ↔
      ∃ k t, k < cap ∧ Runs k ∧ after k = some t ∧ guard.holds? t = some false ∧
        u = { t with loop := .closed }.say "Loop finished!") ∧
    (∀ n u, Replay.close world s = .error (.loopOverrun n) u ↔
      n = cap ∧ Runs n ∧ ∃ t, after n = some t ∧ u = { t with loop := .closed }) ∧
    ∀ e u, (Replay.close world s = .error e u ∧ ∀ n, e ≠ .loopOverrun n) ↔
      (e = .undefinedVariable guard.subject ∧ 0 < cap ∧ guard.holds? s = none ∧
        u = { s with loop := .closed }) ∨
      (e ≠ .undefinedVariable guard.subject ∧ ∃ k t value w, k < cap ∧ Runs k ∧ after k = some t ∧
        guard.holds? t = some true ∧ t.bindings.get? guard.subject = some value ∧
        (t.say (Replay.announce guard (k + 1) value)).FailsIn world lines e w ∧
        u = { w with loop := .closed }) :=
  ⟨fun _ he => State.feed_end h he, fun _ => Replay.close_ok_iff h,
    fun _ _ => Replay.close_overrun_iff h, fun _ _ => Replay.close_error_iff h⟩

def countdown : State :=
  { bindings := [("n", .number 1)]
    loop := .collecting (.guarded ⟨"n", .above, 0⟩) ["subtract 1 from n"] }

def countdownDone : State :=
  { bindings := [("n", .number 0)]
    loop := .replaying (.guarded ⟨"n", .above, 0⟩)
    log := ["  Iteration 1: n = 1", "Subtracted 1 from n. New value: 0"] }

theorem countdown_runs (world : World) :
    Replay.Runs world ⟨"n", .above, 0⟩ ["subtract 1 from n"]
        { countdown with loop := .replaying (.guarded ⟨"n", .above, 0⟩) } 1 ∧
      Replay.stateAfter world ⟨"n", .above, 0⟩ ["subtract 1 from n"]
        { countdown with loop := .replaying (.guarded ⟨"n", .above, 0⟩) } 1 =
        some countdownDone := by
  have hc : (Sentence.classify "subtract 1 from n").command = .subtract 1 "n" := by rfl
  have hx : State.executeAll world ["subtract 1 from n"]
      ({ countdown with loop := .replaying (.guarded ⟨"n", .above, 0⟩) }.say
        (Replay.announce ⟨"n", .above, 0⟩ 1 (.number 1))) = .ok () countdownDone := by
    refine bind_ok (a := ()) ?_
    rw [State.execute, Sentence.execute_leaf _ _ (by simp [hc])]
    simp only [Sentence.act, hc]
    rfl
  have hd := Replay.stateAfter_succ_ok (i := 0) rfl rfl hx
  refine ⟨fun i hi => ?_, hd⟩
  obtain rfl : i = 0 := by omega
  exact ⟨⟨_, rfl, by decide⟩, by simp [hd]⟩

/-- One pass of one allowed is an overrun, though the guard then fails. One of two is not. -/
theorem while_loop_meaning_cap :
    Replay.close ⟨{ maxPasses := 1 }, Canned.services .epoch⟩ countdown =
        .error (.loopOverrun 1) { countdownDone with loop := .closed } ∧
      Replay.close ⟨{ maxPasses := 2 }, Canned.services .epoch⟩ countdown =
        .ok () ({ countdownDone with loop := .closed }.say "Loop finished!") := by
  have hr (world : World) := countdown_runs world
  obtain ⟨-, -, h₁, -⟩ := while_loop_meaning ⟨{ maxPasses := 1 }, Canned.services .epoch⟩
    ⟨"n", .above, 0⟩ ["subtract 1 from n"] countdown rfl
  obtain ⟨-, h₂, -, -⟩ := while_loop_meaning ⟨{ maxPasses := 2 }, Canned.services .epoch⟩
    ⟨"n", .above, 0⟩ ["subtract 1 from n"] countdown rfl
  exact ⟨(h₁ 1 _).2 ⟨rfl, (hr _).1, countdownDone, (hr _).2, rfl⟩,
    (h₂ _).2 ⟨1, countdownDone, by decide, (hr _).1, (hr _).2, by decide, rfl⟩⟩

end SentenceScript
