import Mathlib.Logic.Relation
import SentenceScript.Proofs.Lockstep

namespace SentenceScript

open SentenceScript.Action Text

/-- One change that a script can make to a state. What a service answers is taken over as it is. -/
inductive State.Change (services : Services) (s : State) : State → Prop
  | assign (name : String) (value : Value) : Change services s (s.assign name value)
  | createTask (task : Task) : Change services s { s with tasks := s.tasks ++ [task] }
  | completeTask (name : String) (tasks : List Task)
      (h : Task.setStatus? s.tasks name Task.completeStatus = some tasks) :
      Change services s { s with tasks }
  | connectApi (endpoint : String) : Change services s { s with endpoint := some endpoint }
  | search (endpoint query key : String) (response : SearchResponse)
      (he : s.endpoint = some endpoint) (h : services.search endpoint query key = .ok response) :
      Change services s { s with response := some response }
  | connect (url protocol : String) (connection : Connection)
      (h : services.connect url protocol = .ok connection) :
      Change services s { s with servers := s.servers.insert url connection }
  | disconnect (url : String) : Change services s { s with servers := s.servers.erase url }
  | send (request : ModelRequest) : Change services s { s with request := some request }
  | receive (request : ModelRequest) (text : String) (hr : s.request = some request)
      (h : services.complete request = .ok text) :
      Change services s { s with reply := some ⟨request.model, text, services.now, request⟩ }
  | setLoop (loop : Loop) : Change services s { s with loop }
  | say (lines : List String) : Change services s (s.sayAll lines)

/-- The states that a script can make of a state, change by change. -/
abbrev State.Becomes (services : Services) : State → State → Prop :=
  Relation.ReflTransGen (State.Change services)

/-- What a command makes of a state, apart from what it says. The end of a loop is not told here, and
what is unknown makes nothing. -/
def Command.Makes (services : Services) (s t : State) : Command → Prop
  | .createNumber name _ | .createText name _ | .add _ name | .subtract _ name | .multiply name _
  | .divide name _ | .storeReply name | .measureLength _ name => ∃ value, t = s.assign name value
  | .createTask name status => t = { s with tasks := s.tasks ++ [⟨name, status⟩] }
  | .completeTask name => ∃ tasks, Task.setStatus? s.tasks name Task.completeStatus = some tasks ∧
      t = { s with tasks }
  | .repeatLoop times => s.loop = .closed ∧ t = { s with loop := .collecting (.times times) [] }
  | .whileLoop subject comparison _ threshold => s.loop = .closed ∧
      t = { s with loop := .collecting (.guarded ⟨subject, comparison, threshold⟩) [] }
  | .connectApi endpoint => t = { s with endpoint := some endpoint }
  | .search query key => ∃ endpoint response, s.endpoint = some endpoint ∧
      services.search endpoint query key = .ok response ∧ t = { s with response := some response }
  | .connectServer url protocol => ∃ connection, services.connect url protocol = .ok connection ∧
      t = { s with servers := s.servers.insert url connection }
  | .disconnectServer url => (∃ connection, s.servers.get? url = some connection) ∧
      t = { s with servers := s.servers.erase url }
  | .sendMessage .. => ∃ request, t = { s with request := some request }
  | .awaitReply => ∃ request text, s.request = some request ∧ services.complete request = .ok text ∧
      t = { s with reply := some ⟨request.model, text, services.now, request⟩ }
  | .endLoop | .unknown => False
  | .conditional .. | .showTasks | .showTasksWith _ | .getResponse | .showVariable _ | .showText _
  | .showResponse | .comment _ => t = s

namespace Command.Makes

variable {services : Services} {s t : State} {c : Command}

theorem change (h : c.Makes services s t) : t = s ∨ s.Change services t := by
  cases c with
  | createNumber | createText | add | subtract | multiply | divide | storeReply | measureLength =>
      obtain ⟨value, rfl⟩ := h
      exact .inr (.assign _ value)
  | createTask name status =>
      obtain rfl := h
      exact .inr (.createTask ⟨name, status⟩)
  | completeTask name =>
      obtain ⟨tasks, ht, rfl⟩ := h
      exact .inr (.completeTask name tasks ht)
  | repeatLoop | whileLoop =>
      obtain ⟨-, rfl⟩ := h
      exact .inr (.setLoop _)
  | connectApi endpoint =>
      obtain rfl := h
      exact .inr (.connectApi endpoint)
  | search query key =>
      obtain ⟨endpoint, response, he, hr, rfl⟩ := h
      exact .inr (.search endpoint query key response he hr)
  | connectServer url protocol =>
      obtain ⟨connection, hc, rfl⟩ := h
      exact .inr (.connect url protocol connection hc)
  | disconnectServer url =>
      obtain ⟨-, rfl⟩ := h
      exact .inr (.disconnect url)
  | sendMessage =>
      obtain ⟨request, rfl⟩ := h
      exact .inr (.send request)
  | awaitReply =>
      obtain ⟨request, text, hr, ht, rfl⟩ := h
      exact .inr (.receive request text hr ht)
  | endLoop | unknown => exact h.elim
  | conditional | showTasks | showTasksWith | getResponse | showVariable | showText | showResponse
  | comment => exact .inl h

end Command.Makes

namespace Action

variable {α : Type} {services : Services} {s : State}

/-- An action that gives something with a property or fails, and changes nothing. -/
def Finds (x : Action α) (s : State) (P : α → Prop) : Prop :=
  (∃ e, x s = .error e s) ∨ ∃ a, P a ∧ x s = .ok a s

/-- An action that only adds to the log. -/
def Logs (x : Action Unit) : Prop := ∀ s, ∃ lines, x s = .ok () (State.sayAll s lines)

/-- An action that only adds to the log, and at least one line. -/
def Tells (x : Action Unit) : Prop :=
  ∀ s, ∃ line lines, x s = .ok () (State.sayAll s (line :: lines))

/-- An action that fails and changes nothing, or makes of the state one with a property and then says
something. It may say nothing only if it changes nothing. -/
def Leaves (x : Action Unit) (s : State) (P : State → Prop) : Prop :=
  (∃ e, x s = .error e s) ∨
    ∃ t lines, P t ∧ (lines = [] → t = s) ∧ x s = .ok () (t.sayAll lines)

/-- An action that fails and changes nothing, or makes at most one change and then says something. -/
def Acts (services : Services) (x : Action Unit) (s : State) : Prop :=
  (∃ e, x s = .error e s) ∨
    ∃ t lines, (t = s ∨ s.Change services t) ∧ x s = .ok () (t.sayAll lines)

theorem Reading.finds {x : Action α} (h : Reading x) (s : State) : Finds x s fun _ => True := by
  rcases h s with ⟨a, ha⟩ | ⟨e, -, he⟩
  · exact .inr ⟨a, trivial, ha s.loop []⟩
  · exact .inl ⟨e, he s.loop []⟩

theorem demand_finds (step : MissingStep) (part : State → Option α) (s : State) :
    Finds (demand step part) s fun a => part s = some a := by
  cases h : part s with
  | none => exact .inl ⟨.missing step, by simp only [demand, get_bind, h]; rfl⟩
  | some a => exact .inr ⟨a, rfl, by simp only [demand, get_bind, h]; rfl⟩

theorem ask_finds (answer : Except ServiceError α) (s : State) :
    Finds (ask answer) s fun a => answer = .ok a := by
  cases answer with
  | error e => exact .inl ⟨.service e, rfl⟩
  | ok a => exact .inr ⟨a, rfl, rfl⟩

theorem say_logs (line : String) : Logs (say line) := fun _ => ⟨[line], rfl⟩

theorem sayAll_logs (lines : List String) : Logs (sayAll lines) := fun _ => ⟨lines, rfl⟩

theorem Logs.seq {x y : Action Unit} (hx : Logs x) (hy : Logs y) : Logs (x >>= fun _ => y) := by
  intro s
  obtain ⟨first, hfirst⟩ := hx s
  obtain ⟨rest, hrest⟩ := hy (s.sayAll first)
  refine ⟨first ++ rest, ?_⟩
  rw [bind_ok hfirst, hrest, State.sayAll, State.sayAll, State.sayAll, List.append_assoc]

theorem say_tells (line : String) : Tells (say line) := fun _ => ⟨line, [], rfl⟩

theorem Logs.tells_after {x : Action Unit} (hx : Logs x) (line : String) :
    Tells (say line >>= fun _ => x) := by
  intro s
  obtain ⟨lines, hl⟩ := hx (s.say line)
  have hsay : say line s = .ok () (s.say line) := rfl
  refine ⟨line, lines, ?_⟩
  rw [bind_ok hsay, hl, State.sayAll, State.sayAll, State.say, List.append_assoc]
  rfl

section Leaves

variable {P : State → Prop}

theorem Finds.leaves {x : Action α} {Q : α → Prop} {f : α → Action Unit} (hx : Finds x s Q)
    (hf : ∀ a, Q a → Leaves (f a) s P) : Leaves (x >>= f) s P := by
  rcases hx with ⟨e, he⟩ | ⟨a, ha, hok⟩
  · exact .inl ⟨e, bind_error he⟩
  · have h := hf a ha
    unfold Leaves
    rwa [bind_ok hok]

theorem Tells.leaves {x : Action Unit} (hx : Tells x) (h : P s) : Leaves x s P := by
  obtain ⟨line, lines, hl⟩ := hx s
  exact .inr ⟨s, line :: lines, h, fun _ => rfl, hl⟩

theorem Tells.leaves_after {x : Action Unit} {f : State → State} (hx : Tells x) (h : P (f s)) :
    Leaves (modify f >>= fun _ => x) s P := by
  obtain ⟨line, lines, hl⟩ := hx (f s)
  exact .inr ⟨f s, line :: lines, h, fun hn => absurd hn (List.cons_ne_nil _ _), hl⟩

theorem change_leaves {f : State → State} {line : String} (h : P (f s)) :
    Leaves (do modify f; say line) s P :=
  (say_tells line).leaves_after h

theorem assign_leaves (name : String) (value : Value) (line : String) :
    Leaves (do assign name value; say line) s fun t => ∃ value, t = s.assign name value :=
  change_leaves ⟨value, rfl⟩

theorem look_leaves {f : State → Action Unit} (h : Leaves (f s) s P) : Leaves (get >>= f) s P := h

theorem pure_leaves (h : P s) : Leaves (pure ()) s P :=
  .inr ⟨s, [], h, fun _ => rfl, by rw [State.sayAll, List.append_nil]; rfl⟩

theorem fail_leaves (e : Failure) : Leaves (throw e) s P := .inl ⟨e, rfl⟩

theorem Leaves.acts {x : Action Unit} (h : Leaves x s P)
    (hP : ∀ t, P t → t = s ∨ s.Change services t) : Acts services x s := by
  rcases h with he | ⟨t, lines, ht, -, hok⟩
  · exact .inl he
  · exact .inr ⟨t, lines, hP t ht, hok⟩

end Leaves

theorem update_leaves (target : String) (f : Float → Float) (done : String) :
    Leaves (update target f done) s fun t => ∃ value, t = s.assign target value :=
  ((lookup_reading target).finds s).leaves fun _ _ => assign_leaves _ _ _

theorem divide_leaves (target : String) (divisor : Float) :
    Leaves (divide target divisor) s fun t => ∃ value, t = s.assign target value := by
  unfold divide
  split
  · exact .inl ⟨_, rfl⟩
  · exact update_leaves _ _ _

end Action

namespace Sentence

/-- Outside loops a sentence makes of a state what its command says, and says so if it changes
anything. -/
theorem act_leaves (world : World) (finish : Action Unit) {sentence : Sentence}
    (h : ¬ sentence.command.HandlesLoop) (s : State) :
    Leaves (sentence.act world finish) s (sentence.command.Makes world.services s) := by
  obtain ⟨line, command⟩ := sentence
  cases command with
  | createNumber name value => exact assign_leaves name (.number value) _
  | createText name value => exact assign_leaves name (.text value) _
  | add amount target => exact update_leaves target (· + amount) _
  | subtract amount target => exact update_leaves target (· - amount) _
  | multiply target factor => exact update_leaves target (· * factor) _
  | divide target divisor => exact divide_leaves target divisor
  | createTask name status => exact change_leaves rfl
  | completeTask name =>
      apply look_leaves
      cases h : Task.setStatus? s.tasks name Task.completeStatus with
      | some tasks => exact change_leaves ⟨tasks, h, rfl⟩
      | none => exact fail_leaves _
  | showTasks =>
      apply look_leaves
      dsimp only
      split
      · exact (say_tells _).leaves rfl
      · exact ((sayAll_logs _).tells_after _).leaves rfl
  | showTasksWith status =>
      apply look_leaves
      dsimp only
      split
      · exact (say_tells _).leaves rfl
      · exact ((sayAll_logs _).tells_after _).leaves rfl
  | conditional | comment => exact pure_leaves rfl
  | repeatLoop | whileLoop => exact absurd (.inl rfl) h
  | endLoop => exact absurd (.inr rfl) h
  | connectApi endpoint => exact change_leaves rfl
  | search query key =>
      refine (demand_finds _ _ s).leaves fun endpoint he => ?_
      refine (ask_finds _ s).leaves fun response hr => ?_
      exact change_leaves ⟨endpoint, response, he, hr, rfl⟩
  | getResponse => exact (demand_finds _ _ s).leaves fun _ _ => (say_tells _).leaves rfl
  | connectServer url protocol =>
      refine (ask_finds _ s).leaves fun connection hc => ?_
      exact change_leaves ⟨connection, hc, rfl⟩
  | disconnectServer url =>
      refine (demand_finds _ _ s).leaves fun connection hc => ?_
      refine (ask_finds _ s).leaves fun _ _ => ?_
      exact change_leaves ⟨⟨connection, hc⟩, rfl⟩
  | sendMessage model system message =>
      refine ((messageText_reading message).finds s).leaves fun userMessage _ => ?_
      refine ((promptText_reading system).finds s).leaves fun systemPrompt _ => ?_
      exact (((sayAll_logs _).seq (say_logs _)).tells_after _).leaves_after ⟨_, rfl⟩
  | awaitReply =>
      refine (demand_finds _ _ s).leaves fun request hr => ?_
      refine (ask_finds _ s).leaves fun text ht => ?_
      exact change_leaves ⟨request, text, hr, ht, rfl⟩
  | storeReply target => exact (demand_finds _ _ s).leaves fun _ _ => assign_leaves _ _ _
  | measureLength source target =>
      exact ((lookup_reading source).finds s).leaves fun _ _ => assign_leaves _ _ _
  | showVariable name =>
      exact ((lookup_reading name).finds s).leaves fun _ _ => (say_tells _).leaves rfl
  | showText text => exact (say_tells text).leaves rfl
  | showResponse =>
      exact (demand_finds _ _ s).leaves fun _ _ => ((say_logs _).tells_after _).leaves rfl
  | unknown => exact fail_leaves _

/-- Outside loops a sentence makes at most one change. -/
theorem act_acts (world : World) (finish : Action Unit) {sentence : Sentence}
    (h : ¬ sentence.command.HandlesLoop) (s : State) :
    Acts world.services (sentence.act world finish) s :=
  (act_leaves world finish h s).acts fun _ => Command.Makes.change

end Sentence

theorem Action.Acts.becomes {services : Services} {x : Action Unit} {s : State}
    (h : Acts services x s) : s.Becomes services (Outcome.state (x s)) := by
  rcases h with ⟨e, he⟩ | ⟨t, lines, ht, hok⟩
  · rw [he]
    exact .refl
  · rw [hok]
    rcases ht with rfl | ht
    · exact .single (.say lines)
    · exact .tail (.single ht) (.say lines)

namespace State

variable {world : World}

theorem becomes_stepwise (world : World) :
    Outcome.Stepwise world fun s o => s.Becomes world.services o.state where
  act h finish s := (Sentence.act_acts world finish h s).becomes
  refl _ := .refl
  say _ line := .single (.say [line])
  refuse _ := .refl
  overrun _ := .refl
  start _ kind line := .tail (.single (.setLoop (.collecting kind []))) (.say [line])
  finish {s kind lines o} _ h := by
    have hopen : s.Becomes world.services o.state := .head (.setLoop (.replaying kind)) h
    cases o with
    | ok _ t => exact (hopen.tail (.setLoop .closed)).tail (.say ["Loop finished!"])
    | error e t => exact hopen.tail (.setLoop .closed)
  trans h h' := h.trans h'

theorem execute_becomes (line : String) (s : State) :
    s.Becomes world.services (Outcome.state (s.execute world line)) :=
  (becomes_stepwise world).execute line s

theorem feed_becomes (line : String) (s : State) :
    s.Becomes world.services (Outcome.state (s.feed world line)) :=
  (becomes_stepwise world).feed (fun _ _ => .single (.setLoop _)) line s

theorem feedAll_becomes (lines : List String) (s : State) :
    s.Becomes world.services (Outcome.state (s.feedAll world lines)) :=
  (becomes_stepwise world).feedAll (fun _ _ => .single (.setLoop _)) lines s

theorem record_becomes {x : Action Unit} {services : Services} {s : State}
    (h : s.Becomes services (Outcome.state (x s))) :
    s.Becomes services (Outcome.state (record x s)) := by
  cases hr : x s with
  | ok _ t =>
      rw [hr] at h
      rwa [record_ok hr]
  | error e t =>
      rw [hr] at h
      rw [record_error hr]
      exact h.tail (.say [_])

end State

namespace Session

/-- A script starts with an empty log, and then makes changes one by one. -/
theorem run_becomes (x : Session) (source : String) :
    State.Becomes x.world.services { x.state with log := [] } (x.run source).session.state := by
  rw [run_state]
  exact State.record_becomes (State.feedAll_becomes _ _)

theorem feed_becomes (x : Session) (line : String) :
    State.Becomes x.world.services x.state (x.feed line).session.state := by
  rw [feed_state]
  exact State.record_becomes (State.feed_becomes line x.state)

end Session

end SentenceScript
