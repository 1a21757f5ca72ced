import SentenceScript.Proofs.Effect

namespace SentenceScript

/-- Services that give the canned answers of some time, where they answer. -/
structure Services.CannedAt (now : Instant) (services : Services) : Prop where
  search : ∀ {endpoint query key response}, services.search endpoint query key = .ok response →
    (Canned.services now).search endpoint query key = .ok response
  connect : ∀ {url protocol connection}, services.connect url protocol = .ok connection →
    (Canned.services now).connect url protocol = .ok connection
  complete : ∀ {request text}, services.complete request = .ok text →
    (Canned.services now).complete request = .ok text

theorem Services.failing_cannedAt (now : Instant) (calls : List ServiceCall) (message : String) :
    ((Canned.services now).failing calls message).CannedAt now := by
  have hguarded {α : Type} {call : ServiceCall} {answer : Except ServiceError α} {a : α}
      (h : (if call ∈ calls then .error ⟨call.service, message⟩ else answer) = .ok a) :
      answer = .ok a := by
    split at h
    · cases h
    · exact h
  exact ⟨hguarded, hguarded, hguarded⟩

namespace State

/-- The records of the services agree with each other and with what canned services give: every
server stands under its own address and is connected, a response comes from an endpoint and belongs
to its query, and a reply comes from a request and belongs to its own. -/
structure Consistent (now : Instant) (s : State) : Prop where
  servers : ∀ entry ∈ s.servers.entries, entry.2.url = entry.1 ∧ entry.2.connected = true
  response : ∀ response ∈ s.response, s.endpoint.isSome = true ∧
    ∀ endpoint key, (Canned.services now).search endpoint response.query key = .ok response
  reply : ∀ reply ∈ s.reply, s.request.isSome = true ∧ reply.model = reply.request.model ∧
    reply.response = Canned.reply reply.request.model reply.request.userMessage

/-- What the first state has of endpoint, response, request and reply, the second has too. -/
structure Holds (s t : State) : Prop where
  endpoint : s.endpoint.isSome = true → t.endpoint.isSome = true
  response : s.response.isSome = true → t.response.isSome = true
  request : s.request.isSome = true → t.request.isSome = true
  reply : s.reply.isSome = true → t.reply.isSome = true

variable {services : Services} {now : Instant} {s t u : State}

theorem Consistent.new (now : Instant) : Consistent now {} where
  servers entry hm := absurd hm List.not_mem_nil
  response response hr := by cases hr
  reply reply hr := by cases hr

theorem Change.consistent (hc : services.CannedAt now) (h : s.Change services t)
    (hs : s.Consistent now) : t.Consistent now := by
  cases h with
  | assign | createTask | completeTask | setLoop | say =>
      exact ⟨hs.servers, hs.response, hs.reply⟩
  | connectApi endpoint =>
      exact ⟨hs.servers, fun response hr => ⟨rfl, (hs.response response hr).2⟩, hs.reply⟩
  | search endpoint query key response he h =>
      refine ⟨hs.servers, fun other ho => ?_, hs.reply⟩
      cases ho
      cases hc.search h
      exact ⟨Option.isSome_iff_exists.2 ⟨endpoint, he⟩, fun _ _ => rfl⟩
  | connect url protocol connection h =>
      refine ⟨fun entry hm => ?_, hs.response, hs.reply⟩
      cases hc.connect h
      rcases Servers.mem_insertIn hm with rfl | hm
      · exact ⟨rfl, rfl⟩
      · exact hs.servers entry hm
  | disconnect url =>
      exact ⟨fun entry hm => hs.servers entry (List.mem_filter.1 hm).1, hs.response, hs.reply⟩
  | send request =>
      exact ⟨hs.servers, hs.response, fun reply hr => ⟨rfl, (hs.reply reply hr).2⟩⟩
  | receive request text hr h =>
      refine ⟨hs.servers, hs.response, fun reply ho => ?_⟩
      cases ho
      cases hc.complete h
      exact ⟨Option.isSome_iff_exists.2 ⟨request, hr⟩, rfl, rfl⟩

theorem Becomes.consistent (hc : services.CannedAt now) (h : s.Becomes services t)
    (hs : s.Consistent now) : t.Consistent now := by
  induction h with
  | refl => exact hs
  | tail _ h ih => exact h.consistent hc ih

theorem Holds.refl (s : State) : s.Holds s := ⟨id, id, id, id⟩

theorem Holds.trans (h : s.Holds t) (h' : t.Holds u) : s.Holds u :=
  ⟨h'.endpoint ∘ h.endpoint, h'.response ∘ h.response, h'.request ∘ h.request, h'.reply ∘ h.reply⟩

theorem Change.holds (h : s.Change services t) : s.Holds t := by
  cases h with
  | assign | createTask | completeTask | connect | disconnect | setLoop | say =>
      exact ⟨id, id, id, id⟩
  | connectApi => exact ⟨fun _ => rfl, id, id, id⟩
  | search => exact ⟨id, fun _ => rfl, id, id⟩
  | send => exact ⟨id, id, fun _ => rfl, id⟩
  | receive => exact ⟨id, id, id, fun _ => rfl⟩

theorem Becomes.holds (h : s.Becomes services t) : s.Holds t := by
  induction h with
  | refl => exact .refl s
  | tail _ h ih => exact ih.trans h.holds

end State

namespace Session

/-- A session with canned services, and the snapshots taken of it. The calls that fail may be others
from one step to the next. -/
inductive Lived (now : Instant) : Session → List Snapshot → Prop
  | new (world : World) (hw : world.services.CannedAt now) : Lived now ⟨world, {}⟩ []
  | run (x saved) (source : String) (h : Lived now x saved) : Lived now (x.run source).session saved
  | feed (x saved) (line : String) (h : Lived now x saved) : Lived now (x.feed line).session saved
  | reset (x saved) (h : Lived now x saved) : Lived now x.reset saved
  | save (x saved) (h : Lived now x saved) : Lived now x (x.snapshot :: saved)
  | restore (x saved) (v : Snapshot) (hv : v ∈ saved) (h : Lived now x saved) :
      Lived now (x.restore v) saved
  | move (x saved) (world : World) (hw : world.services.CannedAt now) (h : Lived now x saved) :
      Lived now ⟨world, x.state⟩ saved

/-- One session after another by scripts and lines only. -/
inductive Continues (x : Session) : Session → Prop
  | refl : Continues x x
  | run (y) (source : String) (h : Continues x y) : Continues x (y.run source).session
  | feed (y) (line : String) (h : Continues x y) : Continues x (y.feed line).session

variable {now : Instant} {x y : Session} {saved : List Snapshot}

theorem Lived.consistent (h : Lived now x saved) : x.world.services.CannedAt now ∧
    x.state.Consistent now ∧ ∀ v ∈ saved, v.restore.Consistent now := by
  induction h with
  | new world hw => exact ⟨hw, .new now, List.forall_mem_nil _⟩
  | run x saved source h ih =>
      obtain ⟨hw, hs, hv⟩ := ih
      have hempty : { x.state with log := [] }.Consistent now := ⟨hs.servers, hs.response, hs.reply⟩
      exact ⟨hw, (run_becomes _ source).consistent hw hempty, hv⟩
  | feed x saved line h ih =>
      obtain ⟨hw, hs, hv⟩ := ih
      exact ⟨hw, (feed_becomes _ line).consistent hw hs, hv⟩
  | reset x saved h ih => exact ⟨ih.1, .new now, ih.2.2⟩
  | save x saved h ih =>
      obtain ⟨hw, hs, hv⟩ := ih
      refine ⟨hw, hs, List.forall_mem_cons.2 ⟨?_, hv⟩⟩
      exact ⟨hs.servers, hs.response, hs.reply⟩
  | restore x saved v hm h ih => exact ⟨ih.1, ih.2.2 v hm, ih.2.2⟩
  | move x saved world hw h ih => exact ⟨hw, ih.2⟩

theorem Continues.holds (h : Continues x y) : x.state.Holds y.state := by
  induction h with
  | refl => exact .refl _
  | run y source h ih =>
      have hrun : { y.state with log := [] }.Holds (y.run source).session.state :=
        State.Becomes.holds (run_becomes y source)
      exact ih.trans ⟨hrun.endpoint, hrun.response, hrun.request, hrun.reply⟩
  | feed y line h ih => exact ih.trans (State.Becomes.holds (feed_becomes y line))

end Session

/-- In every session with canned services, whichever calls fail, the records of the services are
consistent. Scripts and lines alone never lose the endpoint, the response, the request or the reply,
with any services. -/
theorem service_records_consistent :
    (∀ now calls message, ((Canned.services now).failing calls message).CannedAt now) ∧
    (∀ now x saved, Session.Lived now x saved → x.state.Consistent now) ∧
    ∀ x y : Session, x.Continues y → x.state.Holds y.state :=
  ⟨Services.failing_cannedAt, fun _ _ _ h => h.consistent.2.1, fun _ _ h => h.holds⟩

/-- Two lines are taken, their snapshot is restored after a reset, and a third line follows for which
the model would have to answer. The response of the search is kept. -/
theorem service_records_consistent_restored :
    let x : Session := ⟨⟨{}, (Canned.services .epoch).failing [.complete] "down"⟩, {}⟩
    let y := (x.feed "connect to the api at \"e\"").session
    let z := (y.feed "send a search for \"q\" using the key \"k\"").session
    let restored := z.reset.restore z.snapshot
    let last := (restored.feed "wait for model response").session
    restored.state.response = some (Canned.searchResponse "q") ∧
      last.state.Consistent .epoch ∧ last.state.response.isSome = true := by
  intro x y z restored last
  obtain ⟨hcanned, hlived, hcontinues⟩ := service_records_consistent
  have hy : y.state = { endpoint := some "e", log := ["Connected to API at e"] } := by
    have hc : (Sentence.classify "connect to the api at \"e\"").command = .connectApi "e" := by rfl
    have hf := State.feed_leaf x.world "connect to the api at \"e\"" (s := x.state) (by decide) rfl
      (by simp [hc])
    simp only [Sentence.act, hc] at hf
    rw [Session.feed_state, State.record_ok hf]
    rfl
  have hresponse : restored.state.response = some (Canned.searchResponse "q") := by
    have hc : (Sentence.classify "send a search for \"q\" using the key \"k\"").command =
        .search "q" "k" := by rfl
    have hf := State.feed_leaf y.world "send a search for \"q\" using the key \"k\"" (s := y.state)
      (by decide) (by rw [hy]; rfl) (by simp [hc])
    simp only [Sentence.act, hc] at hf
    rw [hy] at hf
    change z.state.response = _
    rw [Session.feed_state, hy, State.record_ok hf]
    rfl
  have hz : Session.Lived .epoch z [z.snapshot] :=
    .save _ _ (.feed _ _ _ (.feed _ _ _ (.new _ (hcanned .epoch _ _))))
  have hrestored : Session.Lived .epoch restored [z.snapshot] :=
    .restore _ _ z.snapshot (List.mem_singleton.2 rfl) (.reset _ _ hz)
  refine ⟨hresponse, hlived _ _ _ (.feed _ _ _ hrestored), ?_⟩
  apply (hcontinues restored last (.feed _ _ .refl)).response
  rw [hresponse]
  rfl

end SentenceScript
