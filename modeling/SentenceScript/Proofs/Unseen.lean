import SentenceScript.Proofs.Course
import SentenceScript.Proofs.Log
import SentenceScript.Proofs.TwinWorlds

namespace SentenceScript

open SentenceScript.Action Text

variable {limit limit' : Nat} {world world' : World}

namespace World

/-- The world with another preview length. -/
def previewing (world : World) (limit : Nat) : World :=
  { world with settings := { world.settings with previewLength := limit } }

theorem Twin.previewing (h : world.Twin world') (limit : Nat) :
    world.Twin (world'.previewing limit) :=
  ⟨h.maxPasses, h.search, h.connect, h.disconnect, h.complete⟩

/-- Canned services are twins at all times, if the same calls are out of order. -/
theorem canned_twin {settings settings' : Settings} (h : settings.maxPasses = settings'.maxPasses)
    (now now' : Instant) (calls : List ServiceCall) (message : String) :
    Twin ⟨settings, (Canned.services now).failing calls message⟩
      ⟨settings', (Canned.services now').failing calls message⟩ where
  maxPasses := h
  search := by simp only [Services.failing, Canned.services]
  connect url protocol := by
    simp only [Services.failing, Canned.services]
    split
    · rfl
    · rfl
  disconnect := by simp only [Services.failing, Canned.services]
  complete r r' hr := by
    have hm : r.model = r'.model := congrArg (·.model) hr
    have hu : r.userMessage = r'.userMessage := congrArg (·.userMessage) hr
    simp only [Services.failing, Canned.services, hm, hu]

end World

namespace Sentence

/-- A line that may come down to a message sent. -/
def Sends (line : String) : Prop :=
  ∃ sentence model system message,
    CanReach line sentence ∧ sentence.command = .sendMessage model system message

/-- Only a message is previewed. -/
theorem act_previewing (limit : Nat) (finish : Action Unit) {sentence : Sentence}
    (h : ∀ model system message, sentence.command ≠ .sendMessage model system message) :
    sentence.act (world.previewing limit) finish = sentence.act world finish := by
  obtain ⟨line, command⟩ := sentence
  cases command with
  | sendMessage model system message => exact absurd rfl (h model system message)
  | _ => rfl

theorem execute_previewing (limit : Nat) (finish : Action Unit) {line : String}
    (h : ¬ Sends line) :
    execute (world.previewing limit) finish line = execute world finish line :=
  execute_world_congr fun sentence hr => act_previewing limit finish fun model system message hc =>
    h ⟨sentence, model, system, message, hr, hc⟩

end Sentence

namespace Replay

variable {lines : List String}

theorem body_previewing (limit : Nat) (h : ∀ line ∈ lines, ¬ Sentence.Sends line) :
    body (world.previewing limit) lines = body world lines :=
  forM_congr fun text ht => Sentence.execute_previewing limit _ (h text ht)

theorem passes_previewing (limit : Nat) (h : ∀ line ∈ lines, ¬ Sentence.Sends line)
    (kind : LoopKind) : passes (world.previewing limit) lines kind = passes world lines kind := by
  have hb : body (world.previewing limit) lines = body world lines := body_previewing limit h
  have hguarded (guard : Guard) (left i : Nat) :
      guarded (world.previewing limit) guard lines left i = guarded world guard lines left i := by
    induction left generalizing i with
    | zero => rfl
    | succ left ih => simp only [guarded, hb, ih]
  cases kind with
  | times count => exact counted_congr hb _ _
  | guarded guard => exact hguarded guard _ _

end Replay

namespace State

/-- No line of the loop that is collected can send a message. -/
def KeepsNoSend (s : State) : Prop :=
  ∀ kind lines, s.loop = .collecting kind lines → ∀ line ∈ lines, ¬ Sentence.Sends line

variable {s t : State} {line : String}

theorem close_previewing (limit : Nat) (h : s.KeepsNoSend) :
    Replay.close (world.previewing limit) s = Replay.close world s := by
  cases hl : s.loop with
  | closed | replaying =>
      have hi : s.loop.isCollecting = false := by rw [hl]; rfl
      rw [Replay.close_idle _ hi, Replay.close_idle _ hi]
  | collecting kind lines =>
      rw [Replay.close_eq hl, Replay.close_eq hl, Replay.passes_previewing limit (h kind lines hl)]

theorem feed_previewing (limit : Nat) (hs : s.KeepsNoSend) (h : ¬ Sentence.Sends (trim line)) :
    feed (world.previewing limit) line s = feed world line s := by
  have hx : execute (world.previewing limit) (trim line) s = execute world (trim line) s := by
    rw [execute, execute, Sentence.execute_previewing limit _ h]
    exact Sentence.execute_congr world (close_previewing limit hs) _
  rcases feed_kept_or_executed line s with ⟨t, ht⟩ | hfeed
  · rw [ht, ht]
  · rw [hfeed, hfeed, hx]

theorem Mirrors.refl (s : State) : s.Mirrors limit limit' s :=
  ⟨rfl, rfl, rfl, rfl, rfl, rfl, rfl, rfl, .refl _⟩

/-- What mirrored actions write is the same if they preview alike, whatever the logs were. -/
theorem Mirrors.same_lines (hs : s.Mirrors limit limit' t) {length : Nat} {x y : Action Unit}
    (h : Mirrored length length Eq x y) (hx : Unread x) (hy : Unread y) :
    ∃ lines, (Outcome.state (x s)).log = s.log ++ lines ∧
      (Outcome.state (y t)).log = t.log ++ lines := by
  have hr := h s.unlogged t.unlogged { hs with log := .nil }
  rw [hx.eq_after s, hy.eq_after t]
  generalize x s.unlogged = r, y t.unlogged = r' at hr
  cases hr with
  | ok _ _ u v _ huv => exact ⟨u.log, rfl, congrArg (t.log ++ ·) huv.log.eq.symm⟩
  | error e u v huv => exact ⟨u.log, rfl, congrArg (t.log ++ ·) huv.log.eq.symm⟩

/-- A line that cannot send a message writes the same in both of two worlds. -/
theorem feed_same_lines (h : world.Twin world') (hs : s.Mirrors limit limit' t)
    (hkept : s.KeepsNoSend) (hline : ¬ Sentence.Sends (trim line)) :
    ∃ lines, (Outcome.state (feed world line s)).log = s.log ++ lines ∧
      (Outcome.state (feed world' line t)).log = t.log ++ lines := by
  have ht : t.KeepsNoSend := by rwa [KeepsNoSend, ← hs.loop]
  rw [← feed_previewing world.settings.previewLength ht hline]
  exact hs.same_lines (feed_mirrored (h.previewing _) line) (feed_unread _ _)
    (feed_unread _ _)

end State

/-- Two snapshots that are restored to states that mirror each other. -/
def Snapshot.Mirrors (limit limit' : Nat) (v v' : Snapshot) : Prop :=
  v.restore.Mirrors limit limit' v'.restore

theorem Snapshot.capture_mirrors {s t : State} (h : s.Mirrors limit limit' t) :
    (capture s).Mirrors limit limit' (capture t) where
  bindings := h.bindings
  tasks := h.tasks
  loop := by simp only [capture, restore, h.loop]
  endpoint := h.endpoint
  response := h.response
  servers := h.servers
  request := h.request
  reply := h.reply
  log := h.log

/-- Both are the same failure, or both are lines of the same pieces. -/
inductive SameResult (limit limit' : Nat) :
    Except Failure (List String) → Except Failure (List String) → Prop
  | ok (a b) (h : SamePieces limit limit' a b) : SameResult limit limit' (.ok a) (.ok b)
  | error (e) : SameResult limit limit' (.error e) (.error e)

namespace Session

/-- Two steps with corresponding results, to states that mirror each other. -/
structure Step.Mirrors (limit limit' : Nat) (first second : Step (List String)) : Prop where
  result : SameResult limit limit' first.result second.result
  state : first.session.state.Mirrors limit limit' second.session.state

theorem step_mirrors {o o' : Outcome} (h : EndAlike limit limit' Eq o o') (x y : Session)
    (length length' : Nat) {result : State → List String}
    (hr : ∀ s t, State.Mirrors limit limit' s t → SamePieces limit limit' (result s) (result t)) :
    (x.step length o result).Mirrors limit limit' (y.step length' o' result) := by
  cases h with
  | ok _ _ s t _ h => exact ⟨.ok _ _ (hr s t h), h⟩
  | error e s t h => exact ⟨.error e, h⟩

theorem run_mirrors (h : world.Twin world') {s t : State}
    (hs : s.Mirrors world.settings.previewLength world'.settings.previewLength t)
    (source : String) :
    (run ⟨world, s⟩ source).Mirrors world.settings.previewLength world'.settings.previewLength
      (run ⟨world', t⟩ source) := by
  have hempty : State.Mirrors world.settings.previewLength world'.settings.previewLength
      { s with log := [] } { t with log := [] } := { hs with log := .nil }
  have hall := State.record_mirrored (State.feedAll_mirrored h (scriptLines source)) _ _ hempty
  exact step_mirrors hall ⟨world, s⟩ ⟨world', t⟩ 0 0 fun _ _ h => h.log

namespace Turn

theorem step_mirrors (h : world.Twin world') {s t : State}
    (hs : s.Mirrors world.settings.previewLength world'.settings.previewLength t)
    {saved saved' : List Snapshot}
    (hsaved : List.Forall₂
      (Snapshot.Mirrors world.settings.previewLength world'.settings.previewLength) saved saved')
    (turn : Turn) :
    (turn.step ⟨world, s⟩ saved).Mirrors world.settings.previewLength
      world'.settings.previewLength (turn.step ⟨world', t⟩ saved') := by
  cases turn with
  | run source => exact run_mirrors h hs source
  | feed line =>
      have hfed := State.record_mirrored (State.feed_mirrored h line) s t hs
      rw [step_feed, step_feed]
      exact Session.step_mirrors hfed ⟨world, s⟩ ⟨world', t⟩ _ _ fun _ _ _ => .nil
  | reset => exact ⟨.ok _ _ .nil, .refl _⟩
  | save => exact ⟨.ok _ _ .nil, hs⟩
  | restore n =>
      refine ⟨.ok _ _ .nil, ?_⟩
      simp only [step]
      induction hsaved generalizing n with
      | nil => exact hs
      | cons hv _ ih =>
          cases n with
          | zero => exact hv
          | succ n => exact ih n

end Turn

/-- Two courses in different worlds, that correspond in all their parts. -/
structure Course.Mirrors (world world' : World) (c d : Course) : Prop where
  first : c.session.world = world
  second : d.session.world = world'
  state : c.session.state.Mirrors world.settings.previewLength world'.settings.previewLength
    d.session.state
  saved : List.Forall₂
    (Snapshot.Mirrors world.settings.previewLength world'.settings.previewLength) c.saved d.saved
  results : List.Forall₂ (SameResult world.settings.previewLength world'.settings.previewLength)
    c.results d.results

theorem Course.Mirrors.take (h : world.Twin world') {c d : Course} (hc : c.Mirrors world world' d)
    (turn : Turn) : (c.take turn).Mirrors world world' (d.take turn) := by
  have hx : c.session = ⟨world, c.session.state⟩ := by rw [← hc.first]
  have hy : d.session = ⟨world', d.session.state⟩ := by rw [← hc.second]
  have hstep := turn.step_mirrors h hc.state hc.saved
  rw [← hx, ← hy] at hstep
  refine ⟨(turn.step_world _ _).trans hc.first, (turn.step_world _ _).trans hc.second,
    hstep.state, ?_, List.rel_append hc.results (.cons hstep.result .nil)⟩
  simp only [Course.take]
  cases turn with
  | save => exact List.rel_append hc.saved (.cons (Snapshot.capture_mirrors hc.state) .nil)
  | run | feed | reset | restore => exact hc.saved

end Session

/-- Neither the time nor the preview length nor echoing is seen by a program. In worlds that differ in
nothing else, as canned services at two times do, a session comes to the same results and states but
for the times in them. Their logs correspond line by line, and only the lines that show a message are
cut at different lengths: a line that cannot send one writes the same lines. -/
theorem clock_preview_and_echo_unseen :
    (∀ (settings settings' : Settings) (now now' : Instant) (calls : List ServiceCall)
        (message : String), settings.maxPasses = settings'.maxPasses →
      World.Twin ⟨settings, (Canned.services now).failing calls message⟩
        ⟨settings', (Canned.services now').failing calls message⟩) ∧
    (∀ (world world' : World), world.Twin world' → ∀ (s : State) (turns : List Session.Turn),
      let limit := world.settings.previewLength
      let limit' := world'.settings.previewLength
      let first := Session.Course.takeAll ⟨⟨world, s⟩, [], []⟩ turns
      let second := Session.Course.takeAll ⟨⟨world', s⟩, [], []⟩ turns
      List.Forall₂ (SameResult limit limit') first.results second.results ∧
        first.session.state.Mirrors limit limit' second.session.state ∧
        first.session.state.log.length = second.session.state.log.length ∧
        List.Forall₂ (SameLine limit limit') first.session.state.log second.session.state.log ∧
        (limit = limit' → first.session.state.log = second.session.state.log)) ∧
    ∀ (world world' : World), world.Twin world' → ∀ (limit limit' : Nat) (s t : State)
        (line : String), s.Mirrors limit limit' t → s.KeepsNoSend → ¬ Sentence.Sends (trim line) →
      ∃ lines, (Outcome.state (s.feed world line)).log = s.log ++ lines ∧
        (Outcome.state (t.feed world' line)).log = t.log ++ lines := by
  refine ⟨fun _ _ now now' calls message h => World.canned_twin h now now' calls message, ?_,
    fun world world' h limit limit' s t line => State.feed_same_lines h⟩
  intro world world' h s turns limit limit' first second
  have hstart : Session.Course.Mirrors world world' ⟨⟨world, s⟩, [], []⟩ ⟨⟨world', s⟩, [], []⟩ :=
    ⟨rfl, rfl, .refl s, .nil, .nil⟩
  have hcourse : first.Mirrors world world' second :=
    Session.Course.takeAll_related (fun c d turn hc => hc.take h turn) hstart turns
  have hlines := hcourse.state.log.sameLine
  refine ⟨hcourse.results, hcourse.state, hlines.length_eq, hlines, fun hlimit => ?_⟩
  have hlog : SamePieces limit limit' first.session.state.log second.session.state.log :=
    hcourse.state.log
  rw [← hlimit] at hlog
  exact hlog.eq

def greeting : String := "send message to model \"m\" with user message \"hello\""

/-- The state that a greeting leaves. -/
def greeted (world : World) : State where
  request := some ⟨"m", none, "hello", world.services.now⟩
  log := ["Sending message to m...", "User: " ++ preview "hello" world.settings.previewLength]

/-- A greeting, brought back after it was lost. -/
def greetingTurns : List Session.Turn := [.feed greeting, .save, .reset, .restore 0]

theorem greetingTurns_state (world : World) :
    (Session.Course.takeAll ⟨⟨world, {}⟩, [], []⟩ greetingTurns).session.state = greeted world := by
  have hc : (Sentence.classify greeting).command = .sendMessage "m" none (.literal "hello") := by rfl
  have hfeed := State.feed_leaf world greeting (s := {}) (by decide) rfl (by simp [hc])
  simp only [Sentence.act, hc] at hfeed
  have hfed : (Session.feed ⟨world, {}⟩ greeting).session.state = greeted world := by
    rw [Session.feed_state, State.record_ok hfeed]
    rfl
  simp only [greetingTurns, Session.Course.takeAll, List.foldl_cons, List.foldl_nil,
    Session.Course.take, Session.Turn.step, Session.Turn.saves, Session.snapshot, List.nil_append,
    List.getElem?_cons_zero, Option.elim_some, Session.restore, hfed]
  rfl

/-- A message of five characters, shown whole in one world and cut to one character in the other, and
a line after it that fails in both. -/
theorem clock_preview_and_echo_unseen_greeting :
    let world : World := ⟨{}, (Canned.services .epoch).failing [.complete] "down"⟩
    let world' : World := ⟨{ previewLength := 1, echo := false },
      (Canned.services ⟨1, 0, by decide⟩).failing [.complete] "down"⟩
    world.Twin world' ∧
      (greeted world).log = ["Sending message to m...", "User: hello"] ∧
      (greeted world').log = ["Sending message to m...", "User: h..."] ∧
      (greeted world).Mirrors 100 1 (greeted world') ∧
      ∃ lines, (Outcome.state ((greeted world).feed world "wait for model response")).log =
          (greeted world).log ++ lines ∧
        (Outcome.state ((greeted world').feed world' "wait for model response")).log =
          (greeted world').log ++ lines := by
  intro world world'
  obtain ⟨hcanned, hcourse, hline⟩ := clock_preview_and_echo_unseen
  have htwin : world.Twin world' := hcanned _ _ _ _ _ _ rfl
  have hmirrors := (hcourse world world' htwin {} greetingTurns).2.1
  rw [greetingTurns_state, greetingTurns_state] at hmirrors
  refine ⟨htwin, by decide, by decide, hmirrors, hline _ _ htwin _ _ _ _ _ hmirrors ?_ ?_⟩
  · intro kind lines hl
    cases hl
  · have hc : (Sentence.classify (trim "wait for model response")).command = .awaitReply := by rfl
    rintro ⟨sentence, model, system, message, hr, hs⟩
    cases hr with
    | leaf => cases hc.symm.trans hs
    | yes _ _ _ _ _ h => cases hc.symm.trans h
    | no _ _ _ _ _ h => cases hc.symm.trans h

end SentenceScript
