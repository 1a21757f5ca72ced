import SentenceScript.Proofs.Action

namespace SentenceScript

namespace Action

theorem createNumber_plain (name : String) (value : Float) : Plain (createNumber name value) :=
  (assign_say_writing _ _ _).plain

theorem createText_plain (name value : String) : Plain (createText name value) :=
  (assign_say_writing _ _ _).plain

theorem update_plain (target : String) (f : Float → Float) (done : String) :
    Plain (update target f done) :=
  (lookup_reading target).bind_plain fun _ =>
    (assign_say_writing _ _ _).plain

theorem divide_plain (target : String) (divisor : Float) : Plain (divide target divisor) := by
  unfold divide
  split
  · exact Reading.bind_plain (throw_reading fun _ => trivial) fun _ => update_plain _ _ _
  · exact update_plain _ _ _

theorem createTask_plain (name status : String) : Plain (createTask name status) :=
  Writing.plain (modify_say_writing (fun _ => rfl) fun _ _ _ => rfl)

theorem completeTask_plain (name : String) : Plain (completeTask name) := by
  refine get_bind_plain (fun s => ?_) fun _ _ _ => rfl
  cases h : Task.setStatus? s.tasks name Task.completeStatus with
  | some tasks =>
      have hw : Writing (do
          modify fun s : State => { s with tasks }
          say ("Marked task \"" ++ name ++ "\" as complete")) :=
        modify_say_writing (fun _ => rfl) fun _ _ _ => rfl
      exact hw.plain s
  | none => exact .inr ⟨.taskNotFound name, Task.setStatus?_eq_none.1 h, fun _ _ => rfl⟩

theorem showTasks_plain : Plain showTasks := by
  refine get_bind_plain (fun s => ?_) fun _ _ _ => rfl
  dsimp only
  split
  · exact (say_writing _).plain s
  · exact ((say_writing _).bind fun _ => sayAll_writing _).plain s

theorem showTasksWith_plain (status : String) : Plain (showTasksWith status) := by
  refine get_bind_plain (fun s => ?_) fun _ _ _ => rfl
  dsimp only
  split
  · exact (say_writing _).plain s
  · exact ((say_writing _).bind fun _ => sayAll_writing _).plain s

theorem connectApi_plain (endpoint : String) : Plain (connectApi endpoint) :=
  Writing.plain (modify_say_writing (fun _ => rfl) fun _ _ _ => rfl)

theorem search_plain (services : Services) (query key : String) :
    Plain (search services query key) :=
  (demand_reading _ fun _ _ _ => rfl).bind_plain fun _ => (ask_reading _).bind_plain fun _ =>
    Writing.plain (modify_say_writing (fun _ => rfl) fun _ _ _ => rfl)

theorem getResponse_plain : Plain getResponse :=
  (demand_reading _ fun _ _ _ => rfl).bind_plain fun _ => (say_writing _).plain

theorem showResponse_plain : Plain showResponse :=
  (demand_reading _ fun _ _ _ => rfl).bind_plain fun _ =>
    ((say_writing _).bind fun _ => say_writing _).plain

theorem connectServer_plain (services : Services) (url protocol : String) :
    Plain (connectServer services url protocol) :=
  (ask_reading _).bind_plain fun _ =>
    Writing.plain (modify_say_writing (fun _ => rfl) fun _ _ _ => rfl)

theorem disconnectServer_plain (services : Services) (url : String) :
    Plain (disconnectServer services url) :=
  (demand_reading _ fun _ _ _ => rfl).bind_plain fun _ => (ask_reading _).bind_plain fun _ =>
    Writing.plain (modify_say_writing (fun _ => rfl) fun _ _ _ => rfl)

theorem messageText_reading (message : Message) : Reading (messageText message) := by
  cases message with
  | literal text => exact pure_reading text
  | named name => exact (lookup_reading name).bind fun _ => pure_reading _

theorem promptText_reading (system : Option String) : Reading (promptText system) := by
  cases system with
  | none => exact pure_reading none
  | some name => exact (lookup_reading name).bind fun _ => pure_reading _

theorem sendMessage_plain (world : World) (model : String) (system : Option String)
    (message : Message) : Plain (sendMessage world model system message) :=
  (messageText_reading message).bind_plain fun _ => (promptText_reading system).bind_plain fun _ =>
    Writing.plain (Writing.bind (modify_writing (fun s => .refl s) fun _ _ _ => rfl) fun _ =>
      (say_writing _).bind fun _ => (sayAll_writing _).bind fun _ => say_writing _)

theorem awaitReply_plain (services : Services) : Plain (awaitReply services) :=
  (demand_reading _ fun _ _ _ => rfl).bind_plain fun _ => (ask_reading _).bind_plain fun _ =>
    Writing.plain (modify_say_writing (fun _ => rfl) fun _ _ _ => rfl)

theorem storeReply_plain (target : String) : Plain (storeReply target) :=
  (demand_reading _ fun _ _ _ => rfl).bind_plain fun _ =>
    (assign_say_writing _ _ _).plain

theorem measureLength_plain (source target : String) : Plain (measureLength source target) :=
  (lookup_reading source).bind_plain fun _ =>
    (assign_say_writing _ _ _).plain

theorem showVariable_plain (name : String) : Plain (showVariable name) :=
  (lookup_reading name).bind_plain fun _ => (say_writing _).plain

theorem operand_reading (operand : Operand) : Reading (Action.operand operand) := by
  cases operand with
  | literal n => exact pure_reading _
  | named name => exact lookup_reading name

theorem test_reading (c : Condition) : Reading (test c) :=
  (lookup_reading _).bind fun _ => (operand_reading _).bind fun _ => pure_reading _

theorem openLoop_closed {kind : LoopKind} {announcement : String} {s : State}
    (h : s.loop = .closed) : openLoop kind announcement s =
      .ok () ({ s with loop := .collecting kind [] }.say announcement) := by
  simp only [openLoop, get_bind, h, Loop.kind?]
  rfl

theorem openLoop_open {kind active : LoopKind} {announcement : String} {s : State}
    (h : s.loop.kind? = some active) :
    openLoop kind announcement s = .error (.loopAlreadyOpen active.name) s := by
  simp only [openLoop, get_bind, h]
  rfl

end Action

theorem Loop.kind?_eq_none {loop : Loop} : loop.kind? = none ↔ loop = .closed := by
  cases loop <;> simp [Loop.kind?]

def Command.opens? : Command → Option LoopKind
  | .repeatLoop times => some (.times times)
  | .whileLoop subject comparison _ threshold => some (.guarded ⟨subject, comparison, threshold⟩)
  | _ => none

def Command.HandlesLoop (c : Command) : Prop := c.opens?.isSome ∨ c = .endLoop

namespace Sentence

open SentenceScript.Action

/-- Outside loops a sentence does all or nothing, and in the same way in every loop. -/
theorem act_plain (world : World) (finish : Action Unit) {sentence : Sentence}
    (h : ¬ sentence.command.HandlesLoop) : Plain (sentence.act world finish) := by
  obtain ⟨line, command⟩ := sentence
  cases command with
  | createNumber name value => exact createNumber_plain name value
  | createText name value => exact createText_plain name value
  | add amount target => exact update_plain target (· + amount) _
  | subtract amount target => exact update_plain target (· - amount) _
  | multiply target factor => exact update_plain target (· * factor) _
  | divide target divisor => exact divide_plain target divisor
  | createTask name status => exact createTask_plain name status
  | completeTask name => exact completeTask_plain name
  | showTasks => exact showTasks_plain
  | showTasksWith status => exact showTasksWith_plain status
  | conditional | comment => exact (pure_reading ()).plain
  | repeatLoop | whileLoop => exact absurd (.inl rfl) h
  | endLoop => exact absurd (.inr rfl) h
  | connectApi endpoint => exact connectApi_plain endpoint
  | search query key => exact search_plain world.services query key
  | getResponse => exact getResponse_plain
  | connectServer url protocol => exact connectServer_plain world.services url protocol
  | disconnectServer url => exact disconnectServer_plain world.services url
  | sendMessage model system message => exact sendMessage_plain world model system message
  | awaitReply => exact awaitReply_plain world.services
  | storeReply target => exact storeReply_plain target
  | measureLength source target => exact measureLength_plain source target
  | showVariable name => exact showVariable_plain name
  | showText text => exact (say_writing text).plain
  | showResponse => exact showResponse_plain
  | unknown => exact Reading.plain (throw_reading fun _ => trivial)

/-- Of all commands only the end of a loop calls `finish`. -/
theorem act_finish_congr {sentence : Sentence} (h : sentence.command ≠ .endLoop) (world : World)
    (finish finish' : Action Unit) : sentence.act world finish = sentence.act world finish' := by
  cases hc : sentence.command with
  | endLoop => exact absurd hc h
  | _ => simp only [act, hc]

theorem act_eq_finish {sentence : Sentence} (h : sentence.command = .endLoop) (world : World)
    (finish : Action Unit) : sentence.act world finish = finish := by
  simp only [act, h]

theorem act_eq_openLoop {sentence : Sentence} {kind : LoopKind}
    (h : sentence.command.opens? = some kind) :
    ∃ announcement, ∀ world finish, sentence.act world finish = openLoop kind announcement := by
  obtain ⟨line, command⟩ := sentence
  cases command with
  | repeatLoop | whileLoop =>
      cases h
      exact ⟨_, fun _ _ => rfl⟩
  | _ => cases h

theorem act_header (world : World) (finish : Action Unit) {sentence : Sentence} {kind : LoopKind}
    (h : sentence.command.opens? = some kind) (s : State) :
    (∃ line, s.loop = .closed ∧ sentence.act world finish s =
        .ok () ({ s with loop := .collecting kind [] }.say line)) ∨
      ∃ active, s.loop.kind? = some active ∧
        sentence.act world finish s = .error (.loopAlreadyOpen active.name) s := by
  obtain ⟨announcement, ha⟩ := act_eq_openLoop h
  rw [ha]
  cases hk : s.loop.kind? with
  | none =>
      have hl := Loop.kind?_eq_none.1 hk
      exact .inl ⟨announcement, hl, openLoop_closed hl⟩
  | some active => exact .inr ⟨active, rfl, openLoop_open hk⟩

end Sentence

end SentenceScript
