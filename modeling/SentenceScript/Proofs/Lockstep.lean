import SentenceScript.Proofs.Feeding

namespace SentenceScript

open SentenceScript.Action Text

namespace Action

variable {α β : Type} {s t : State}

/-- In two states an action gives the same or fails alike, and changes neither. -/
def ReadsAlike (x : Action α) (s t : State) : Prop :=
  (∃ a, x s = .ok a s ∧ x t = .ok a t) ∨
    ∃ e, s.Refuses e ∧ x s = .error e s ∧ x t = .error e t

theorem ReadsAlike.bind {x : Action α} {f : α → Action β} (hx : ReadsAlike x s t)
    (hf : ∀ a, ReadsAlike (f a) s t) : ReadsAlike (x >>= f) s t := by
  rcases hx with ⟨a, hs, ht⟩ | ⟨e, he, hs, ht⟩
  · have h := hf a
    unfold ReadsAlike
    rwa [bind_ok hs, bind_ok ht]
  · exact .inr ⟨e, he, bind_error hs, bind_error ht⟩

theorem pure_readsAlike (a : α) : ReadsAlike (pure a) s t := .inl ⟨a, rfl, rfl⟩

theorem lookup_readsAlike (h : s.bindings = t.bindings) (name : String) :
    ReadsAlike (lookup name) s t := by
  cases hv : s.bindings.get? name with
  | some value => exact .inl ⟨value, lookup_some hv, lookup_some (h ▸ hv)⟩
  | none => exact .inr ⟨.undefinedVariable name, hv, lookup_none hv, lookup_none (h ▸ hv)⟩

theorem test_readsAlike (h : s.bindings = t.bindings) (c : Condition) :
    ReadsAlike (test c) s t := by
  refine (lookup_readsAlike h _).bind fun _ => ReadsAlike.bind ?_ fun _ => pure_readsAlike _
  cases c.operand with
  | literal n => exact pure_readsAlike _
  | named name => exact lookup_readsAlike h name

/-- From every two related states, two actions end in a certain way. -/
def InStep (R : State → State → Prop) (Q : State → State → Outcome → Outcome → Prop)
    (x y : Action Unit) : Prop :=
  ∀ s t, R s t → Q s t (x s) (y t)

end Action

namespace Outcome

/-- What is so between two runs of one script from related states, if it is so of every step of the
two. A step is a sentence that handles no loop, a line written, a failure that changes nothing, or the
start or the end of a loop. -/
structure Lockstep (world world' : World) (R : State → State → Prop)
    (Q : State → State → Outcome → Outcome → Prop) : Prop where
  maxPasses : world.settings.maxPasses = world'.settings.maxPasses
  bindings {s t : State} (h : R s t) : s.bindings = t.bindings
  loop {s t : State} (h : R s t) : s.loop = t.loop
  setLoop {s t : State} (h : R s t) (loop : Loop) : R { s with loop } { t with loop }
  act {sentence : Sentence} (hn : ¬ sentence.command.HandlesLoop) (finish : Action Unit) :
    InStep R Q (sentence.act world finish) (sentence.act world' finish)
  refl {s t : State} (h : R s t) : Q s t (.ok () s) (.ok () t)
  say {s t : State} (h : R s t) (line : String) :
    Q s t (.ok () (s.say line)) (.ok () (t.say line))
  refuse {s t : State} {e : Failure} (h : R s t) (he : s.Refuses e) :
    Q s t (.error e s) (.error e t)
  overrun {s t : State} (h : R s t) :
    Q s t (.error (.loopOverrun world.settings.maxPasses) s)
      (.error (.loopOverrun world.settings.maxPasses) t)
  start {s t : State} (h : R s t) (hl : s.loop = .closed) (kind : LoopKind) (line : String) :
    Q s t (.ok () ({ s with loop := .collecting kind [] }.say line))
      (.ok () ({ t with loop := .collecting kind [] }.say line))
  finish {s t : State} {kind : LoopKind} {lines : List String} {o o' : Outcome} (h : R s t)
    (hl : s.loop = .collecting kind lines)
    (ho : Q { s with loop := .replaying kind } { t with loop := .replaying kind } o o') :
    Q s t o.finishLoop o'.finishLoop
  failure {s t : State} {o o' : Outcome} (h : Q s t o o') : o.failure = o'.failure
  next {s t s' t' : State} (h : Q s t (.ok () s') (.ok () t')) : R s' t'
  trans {s t s' t' : State} {o o' : Outcome} (h : Q s t (.ok () s') (.ok () t'))
    (h' : Q s' t' o o') : Q s t o o'

namespace Lockstep

variable {world world' : World} {R : State → State → Prop}
  {Q : State → State → Outcome → Outcome → Prop} (c : Lockstep world world' R Q)
include c

theorem seq {x x' y y' : Action Unit} (hx : InStep R Q x x') (hy : InStep R Q y y') :
    InStep R Q (x >>= fun _ => y) (x' >>= fun _ => y') := by
  intro s t h
  have hq := hx s t h
  have hfailure := c.failure hq
  cases hs : x s with
  | ok _ s' =>
      cases ht : x' t with
      | ok _ t' =>
          rw [hs, ht] at hq
          rw [bind_ok hs, bind_ok ht]
          exact c.trans hq (hy s' t' (c.next hq))
      | error e t' =>
          rw [hs, ht] at hfailure
          cases hfailure
  | error e s' =>
      cases ht : x' t with
      | ok _ t' =>
          rw [hs, ht] at hfailure
          cases hfailure
      | error e' t' =>
          rw [hs, ht] at hq
          rwa [bind_error hs, bind_error ht]

theorem read {α : Type} {x : Action α} {f g : α → Action Unit}
    (hx : ∀ s t, R s t → ReadsAlike x s t) (hf : ∀ a, InStep R Q (f a) (g a)) :
    InStep R Q (x >>= f) (x >>= g) := by
  intro s t h
  rcases hx s t h with ⟨a, hs, ht⟩ | ⟨e, he, hs, ht⟩
  · rw [bind_ok hs, bind_ok ht]
    exact hf a s t h
  · rw [bind_error hs, bind_error ht]
    exact c.refuse h he

theorem sentence {finish finish' : Action Unit} (hf : InStep R Q finish finish')
    (sentence : Sentence) :
    InStep R Q (sentence.act world finish) (sentence.act world' finish') := by
  intro s t h
  by_cases hh : sentence.command.HandlesLoop
  · rcases hh with hopen | hend
    · obtain ⟨kind, hk⟩ := Option.isSome_iff_exists.1 hopen
      obtain ⟨announcement, ha⟩ := Sentence.act_eq_openLoop hk
      rw [ha, ha]
      cases hl : s.loop.kind? with
      | none =>
          have hl := Loop.kind?_eq_none.1 hl
          rw [openLoop_closed hl, openLoop_closed (c.loop h ▸ hl)]
          exact c.start h hl kind announcement
      | some active =>
          rw [openLoop_open hl, openLoop_open (c.loop h ▸ hl)]
          exact c.refuse h trivial
    · rw [Sentence.act_eq_finish hend, Sentence.act_eq_finish hend]
      exact hf s t h
  · rw [Sentence.act_finish_congr (fun he => hh (.inr he)) world' finish' finish]
    exact c.act hh finish s t h

theorem line {finish finish' : Action Unit} (hf : InStep R Q finish finish') (line : String) :
    InStep R Q (Sentence.execute world finish line) (Sentence.execute world' finish' line) := by
  induction line using Sentence.line_induction with
  | leaf line hl =>
      rw [Sentence.execute_leaf _ _ hl, Sentence.execute_leaf _ _ hl]
      exact c.sentence hf _
  | conditional line condition yes no hc ihy ihn =>
      rw [Sentence.execute_conditional _ _ hc, Sentence.execute_conditional _ _ hc]
      refine c.read (fun s t h => test_readsAlike (c.bindings h) condition) fun holds => ?_
      cases holds with
      | true => exact ihy
      | false =>
          cases no with
          | none => exact fun s t h => c.refl h
          | some no => exact ihn no rfl

theorem forM {f g : String → Action Unit} (hf : ∀ a, InStep R Q (f a) (g a)) (l : List String) :
    InStep R Q (l.forM f) (l.forM g) := by
  induction l with
  | nil => exact fun s t h => c.refl h
  | cons a rest ih => exact c.seq (hf a) ih

theorem body (lines : List String) :
    InStep R Q (Replay.body world lines) (Replay.body world' lines) :=
  c.forM (c.line fun _ _ h => c.refuse (e := .noActiveLoop) h trivial) lines

theorem counted (lines : List String) (left i : Nat) :
    InStep R Q (Replay.counted world lines left i) (Replay.counted world' lines left i) := by
  induction left generalizing i with
  | zero => exact fun s t h => c.refl h
  | succ left ih => exact c.seq (fun s t h => c.say h _) (c.seq (c.body lines) (ih (i + 1)))

theorem guarded (guard : Guard) (lines : List String) (left i : Nat) :
    InStep R Q (Replay.guarded world guard lines left i)
      (Replay.guarded world' guard lines left i) := by
  induction left generalizing i with
  | zero =>
      intro s t h
      rw [Replay.guarded, Replay.guarded, ← c.maxPasses]
      exact c.overrun h
  | succ left ih =>
      refine c.read (fun s t h => lookup_readsAlike (c.bindings h) _) fun value => ?_
      split
      · exact c.seq (fun s t h => c.say h _) (c.seq (c.body lines) (ih (i + 1)))
      · exact fun s t h => c.refl h

theorem passes (lines : List String) (kind : LoopKind) :
    InStep R Q (Replay.passes world lines kind) (Replay.passes world' lines kind) := by
  cases kind with
  | times count => exact c.counted lines _ _
  | guarded guard =>
      rw [Replay.passes, Replay.passes, ← c.maxPasses]
      exact c.guarded guard lines _ _

theorem close : InStep R Q (Replay.close world) (Replay.close world') := by
  intro s t h
  have hloop := c.loop h
  cases hl : s.loop with
  | closed | replaying =>
      have hi : s.loop.isCollecting = false := by rw [hl]; rfl
      rw [Replay.close_idle world hi, Replay.close_idle world' (hloop ▸ hi)]
      exact c.refuse h trivial
  | collecting kind lines =>
      rw [Replay.close_eq hl, Replay.close_eq (hloop ▸ hl)]
      exact c.finish h hl (c.passes lines kind _ _ (c.setLoop h _))

theorem execute (line : String) :
    InStep R Q (State.execute world line) (State.execute world' line) := c.line c.close line

variable (keep : ∀ {s t : State} {kind : LoopKind} {lines : List String} (text : String),
  R s t → s.loop = .collecting kind lines →
    Q s t (.ok () { s with loop := .collecting kind (lines ++ [text]) })
      (.ok () { t with loop := .collecting kind (lines ++ [text]) }))
include keep

theorem feed (line : String) :
    InStep R Q (State.feed world line) (State.feed world' line) := by
  intro s t h
  have hloop := c.loop h
  cases hb : (trim line).isEmpty with
  | true =>
      rw [State.feed_blank hb, State.feed_blank hb]
      exact c.refl h
  | false =>
      cases hl : s.loop with
      | closed | replaying =>
          have hi : s.loop.isCollecting = false := by rw [hl]; rfl
          rw [State.feed_idle hb hi, State.feed_idle hb (hloop ▸ hi)]
          exact c.execute _ s t h
      | collecting kind lines =>
          cases he : endsLoop (trim line) with
          | true =>
              rw [State.feed_end hl he, State.feed_end (hloop ▸ hl) he]
              exact c.close s t h
          | false =>
              rw [State.feed_kept hb hl he, State.feed_kept hb (hloop ▸ hl) he]
              exact keep _ h hl

theorem feedAll (lines : List String) :
    InStep R Q (State.feedAll world lines) (State.feedAll world' lines) :=
  c.forM (c.feed keep) lines

end Lockstep

/-- What is so between a state and how a script ends in it, if it is so of every step of the script:
the case of two runs that are one. -/
structure Stepwise (world : World) (Q : State → Outcome → Prop) : Prop where
  act {sentence : Sentence} (h : ¬ sentence.command.HandlesLoop) (finish : Action Unit) (s : State) :
    Q s (sentence.act world finish s)
  refl (s : State) : Q s (.ok () s)
  say (s : State) (line : String) : Q s (.ok () (s.say line))
  refuse {s : State} {e : Failure} (h : s.Refuses e) : Q s (.error e s)
  overrun (s : State) : Q s (.error (.loopOverrun world.settings.maxPasses) s)
  start {s : State} (h : s.loop = .closed) (kind : LoopKind) (line : String) :
    Q s (.ok () ({ s with loop := .collecting kind [] }.say line))
  finish {s : State} {kind : LoopKind} {lines : List String} {o : Outcome}
    (hl : s.loop = .collecting kind lines) (h : Q { s with loop := .replaying kind } o) :
    Q s o.finishLoop
  trans {s t : State} {o : Outcome} (h : Q s (.ok () t)) (h' : Q t o) : Q s o

namespace Stepwise

variable {world : World} {Q : State → Outcome → Prop} (c : Stepwise world Q)
include c

theorem lockstep : Lockstep world world Eq fun s _ o o' => o = o' ∧ Q s o where
  maxPasses := rfl
  bindings h := congrArg State.bindings h
  loop h := congrArg State.loop h
  setLoop := by
    rintro s _ rfl loop
    rfl
  act := by
    rintro sentence hn finish s _ rfl
    exact ⟨rfl, c.act hn finish s⟩
  refl := by
    rintro s _ rfl
    exact ⟨rfl, c.refl s⟩
  say := by
    rintro s _ rfl line
    exact ⟨rfl, c.say s line⟩
  refuse := by
    rintro s _ e rfl he
    exact ⟨rfl, c.refuse he⟩
  overrun := by
    rintro s _ rfl
    exact ⟨rfl, c.overrun s⟩
  start := by
    rintro s _ rfl hl kind line
    exact ⟨rfl, c.start hl kind line⟩
  finish := by
    rintro s _ kind lines o _ rfl hl ⟨rfl, ho⟩
    exact ⟨rfl, c.finish hl ho⟩
  failure h := congrArg Outcome.failure h.1
  next h := by
    cases h.1
    rfl
  trans h h' := ⟨h'.1, c.trans h.2 h'.2⟩

theorem line {finish : Action Unit} (hf : ∀ s, Q s (finish s)) (line : String) (s : State) :
    Q s (Sentence.execute world finish line s) := by
  have hfinish : InStep Eq (fun s _ o o' => o = o' ∧ Q s o) finish finish := by
    rintro s _ rfl
    exact ⟨rfl, hf s⟩
  exact (c.lockstep.line hfinish line s s rfl).2

theorem body (lines : List String) (s : State) : Q s (Replay.body world lines s) :=
  (c.lockstep.body lines s s rfl).2

theorem counted (lines : List String) (left i : Nat) (s : State) :
    Q s (Replay.counted world lines left i s) :=
  (c.lockstep.counted lines left i s s rfl).2

theorem guarded (guard : Guard) (lines : List String) (left i : Nat) (s : State) :
    Q s (Replay.guarded world guard lines left i s) :=
  (c.lockstep.guarded guard lines left i s s rfl).2

theorem execute (line : String) (s : State) : Q s (s.execute world line) :=
  (c.lockstep.execute line s s rfl).2

variable (keep : ∀ {s : State} {kind : LoopKind} {lines : List String} (text : String),
  s.loop = .collecting kind lines → Q s (.ok () { s with loop := .collecting kind (lines ++ [text]) }))
include keep

theorem feed (line : String) (s : State) : Q s (s.feed world line) := by
  refine (c.lockstep.feed ?_ line s s rfl).2
  rintro s _ kind lines text rfl hl
  exact ⟨rfl, keep text hl⟩

theorem feedAll (lines : List String) (s : State) : Q s (s.feedAll world lines) := by
  refine (c.lockstep.feedAll ?_ lines s s rfl).2
  rintro s _ kind lines text rfl hl
  exact ⟨rfl, keep text hl⟩

end Stepwise

end Outcome

end SentenceScript
