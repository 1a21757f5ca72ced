import SentenceScript.Proofs.Lockstep
import SentenceScript.Proofs.Mirror

namespace SentenceScript

open SentenceScript.Action Text

variable {limit limit' : Nat} {world world' : World}

namespace Action

/-- Two actions that end alike from states that mirror each other in two worlds. -/
abbrev MirroredIn (world world' : World) (x y : Action Unit) : Prop :=
  Mirrored world.settings.previewLength world'.settings.previewLength Eq x y

theorem assign_say_steady (name : String) (value : Value) (line : String) :
    Steady limit limit' (do assign name value; say line) :=
  (assign_steady name value).seq (say_steady line)

theorem change_say_mirrored {f g : State → State} {line : String}
    (h : ∀ s t, State.Mirrors limit limit' s t → State.Mirrors limit limit' (f s) (g t)) :
    Mirrored limit limit' Eq (do modify f; say line) (do modify g; say line) :=
  (change_mirrored h).seq (say_steady line)

theorem update_steady (target : String) (f : Float → Float) (done : String) :
    Steady limit limit' (update target f done) :=
  (lookup_steady target).bind fun _ => assign_say_steady _ _ _

theorem divide_steady (target : String) (divisor : Float) :
    Steady limit limit' (divide target divisor) := by
  unfold divide
  split
  · exact Mirrored.seq (fail_mirrored _) (update_steady _ _ _)
  · exact update_steady _ _ _

theorem createTask_steady (name status : String) : Steady limit limit' (createTask name status) :=
  change_say_mirrored fun _ _ h => { h with tasks := by rw [h.tasks] }

theorem completeTask_steady (name : String) : Steady limit limit' (completeTask name) := by
  refine look_mirrored fun s t h => ?_
  rw [h.tasks]
  cases Task.setStatus? t.tasks name Task.completeStatus with
  | some tasks => exact change_say_mirrored fun _ _ h => { h with tasks := rfl }
  | none => exact fail_mirrored _

/-- A list of tasks under a heading, or a line that says there are none. -/
theorem showFound_steady (found : List Task) (none heading : String) (lines : List String) :
    Steady limit limit' (if found.isEmpty then say none else do say heading; sayAll lines) := by
  split
  · exact say_steady _
  · exact (say_steady _).seq (sayAll_steady _)

theorem showTasks_steady : Steady limit limit' showTasks := by
  refine look_mirrored fun s t h => ?_
  rw [h.tasks]
  exact showFound_steady _ _ _ _

theorem showTasksWith_steady (status : String) : Steady limit limit' (showTasksWith status) := by
  refine look_mirrored fun s t h => ?_
  rw [h.tasks]
  exact showFound_steady _ _ _ _

theorem connectApi_steady (endpoint : String) : Steady limit limit' (connectApi endpoint) :=
  change_say_mirrored fun _ _ h => { h with endpoint := rfl }

theorem getResponse_steady : Steady limit limit' getResponse :=
  (demand_steady _ fun _ _ h => h.response).bind fun _ => say_steady _

theorem showResponse_steady : Steady limit limit' showResponse :=
  (demand_steady _ fun _ _ h => h.response).bind fun _ => (say_steady _).seq (say_steady _)

theorem messageText_steady (message : Message) : Steady limit limit' (messageText message) := by
  cases message with
  | literal text => exact pure_steady text
  | named name => exact (lookup_steady name).bind fun _ => pure_steady _

theorem promptText_steady (system : Option String) : Steady limit limit' (promptText system) := by
  cases system with
  | none => exact pure_steady none
  | some name => exact (lookup_steady name).bind fun _ => pure_steady _

theorem storeReply_steady (target : String) : Steady limit limit' (storeReply target) := by
  refine (demand_mirrored _ (·.undated) fun _ _ h => h.reply).bind fun reply reply' h => ?_
  have hr : reply.response = reply'.response := congrArg (·.response) h
  rw [hr]
  exact assign_say_steady _ _ _

theorem measureLength_steady (source target : String) :
    Steady limit limit' (measureLength source target) :=
  (lookup_steady source).bind fun _ => assign_say_steady _ _ _

theorem showVariable_steady (name : String) : Steady limit limit' (showVariable name) :=
  (lookup_steady name).bind fun _ => say_steady _

theorem search_mirrored (h : world.Twin world') (query key : String) :
    Mirrored limit limit' Eq (search world.services query key)
      (search world'.services query key) := by
  refine (demand_steady _ fun _ _ h => h.endpoint).bind fun endpoint => ?_
  rw [h.search]
  exact (ask_steady _).bind fun _ =>
    change_say_mirrored fun _ _ h => { h with response := rfl }

theorem connectServer_mirrored (h : world.Twin world') (url protocol : String) :
    Mirrored limit limit' Eq (connectServer world.services url protocol)
      (connectServer world'.services url protocol) :=
  (ask_mirrored _ (h.connect url protocol)).bind fun _ _ hc =>
    change_say_mirrored fun _ _ h => { h with servers := Servers.undated_insert h.servers hc url }

theorem disconnectServer_mirrored (h : world.Twin world') (url : String) :
    Mirrored limit limit' Eq (disconnectServer world.services url)
      (disconnectServer world'.services url) := by
  refine (demand_mirrored _ _ fun _ _ h => Servers.undated_get? h.servers url).bind
    fun _ _ _ => ?_
  rw [h.disconnect]
  exact (ask_steady _).seq
    (change_say_mirrored fun _ _ h => { h with servers := Servers.undated_erase h.servers url })

theorem sendMessage_mirrored (world world' : World) (model : String) (system : Option String)
    (message : Message) :
    MirroredIn world world' (sendMessage world model system message)
      (sendMessage world' model system message) := by
  refine (messageText_steady message).bind fun text => (promptText_steady system).bind fun prompt =>
    Mirrored.seq (change_mirrored fun _ _ h => { h with request := rfl }) ?_
  -- The three steps that write are one that writes a piece.
  have hp (limit : Nat) : (do
      say ("Sending message to " ++ model ++ "...")
      sayAll ((prompt.filter (!·.isEmpty)).toList.map fun p => "System: " ++ preview p limit)
      say ("User: " ++ preview text limit)) =
        sayAll (LogPiece.lines limit (.message model prompt text)) := by
    funext s
    change EStateM.Result.ok () _ = EStateM.Result.ok () _
    simp only [State.say, State.sayAll, LogPiece.lines, List.append_assoc, List.cons_append,
      List.nil_append]
  rw [hp, hp]
  exact piece_mirrored _

theorem awaitReply_mirrored (h : world.Twin world') :
    Mirrored limit limit' Eq (awaitReply world.services) (awaitReply world'.services) := by
  refine (demand_mirrored _ (·.undated) fun _ _ h => h.request).bind fun request request' hr => ?_
  have hm : request.model = request'.model := congrArg (·.model) hr
  rw [h.complete request request' hr]
  refine (ask_steady _).bind fun response =>
    change_say_mirrored fun _ _ h => { h with reply := ?_ }
  simp only [Option.map_some, ModelReply.undated, hm, hr]

end Action

theorem Sentence.act_mirrored (h : world.Twin world') {sentence : Sentence}
    (hn : ¬ sentence.command.HandlesLoop) (finish : Action Unit) :
    MirroredIn world world' (sentence.act world finish) (sentence.act world' finish) := by
  obtain ⟨line, command⟩ := sentence
  cases command with
  | createNumber | createText => exact assign_say_steady _ _ _
  | add amount target => exact update_steady target (· + amount) _
  | subtract amount target => exact update_steady target (· - amount) _
  | multiply target factor => exact update_steady target (· * factor) _
  | divide target divisor => exact divide_steady target divisor
  | createTask name status => exact createTask_steady name status
  | completeTask name => exact completeTask_steady name
  | showTasks => exact showTasks_steady
  | showTasksWith status => exact showTasksWith_steady status
  | conditional | comment => exact pure_steady ()
  | repeatLoop | whileLoop => exact absurd (.inl rfl) hn
  | endLoop => exact absurd (.inr rfl) hn
  | connectApi endpoint => exact connectApi_steady endpoint
  | search query key => exact search_mirrored h query key
  | getResponse => exact getResponse_steady
  | connectServer url protocol => exact connectServer_mirrored h url protocol
  | disconnectServer url => exact disconnectServer_mirrored h url
  | sendMessage model system message => exact sendMessage_mirrored world world' model system message
  | awaitReply => exact awaitReply_mirrored h
  | storeReply target => exact storeReply_steady target
  | measureLength source target => exact measureLength_steady source target
  | showVariable name => exact showVariable_steady name
  | showText text => exact say_steady text
  | showResponse => exact showResponse_steady
  | unknown => exact fail_mirrored _

theorem Action.EndAlike.finishLoop {o o' : Outcome} (h : EndAlike limit limit' Eq o o') :
    EndAlike limit limit' Eq o.finishLoop o'.finishLoop := by
  cases h with
  | ok _ _ s t _ h => exact say_steady _ _ _ { h with loop := rfl }
  | error e s t h => exact .error e _ _ { h with loop := rfl }

theorem World.Twin.lockstep (h : world.Twin world') :
    Outcome.Lockstep world world'
      (State.Mirrors world.settings.previewLength world'.settings.previewLength)
      fun _ _ => EndAlike world.settings.previewLength world'.settings.previewLength Eq where
  maxPasses := h.maxPasses
  bindings hs := hs.bindings
  loop hs := hs.loop
  setLoop hs _ := { hs with loop := rfl }
  act := Sentence.act_mirrored h
  refl hs := .ok _ _ _ _ rfl hs
  say hs line := say_steady line _ _ hs
  refuse hs _ := .error _ _ _ hs
  overrun hs := .error _ _ _ hs
  start hs _ _ line := say_steady line _ _ { hs with loop := rfl }
  finish _ _ ho := ho.finishLoop
  failure ho := by cases ho <;> rfl
  next ho := by
    cases ho with
    | ok _ _ _ _ _ hs => exact hs
  trans _ ho := ho

namespace State

theorem feed_mirrored (h : world.Twin world') (line : String) :
    MirroredIn world world' (feed world line) (feed world' line) :=
  h.lockstep.feed (fun _ hs _ => .ok _ _ _ _ rfl { hs with loop := rfl }) line

theorem feedAll_mirrored (h : world.Twin world') (lines : List String) :
    MirroredIn world world' (feedAll world lines) (feedAll world' lines) :=
  h.lockstep.forM (feed_mirrored h) lines

theorem record_mirrored {x y : Action Unit} (h : Mirrored limit limit' Eq x y) :
    Mirrored limit limit' Eq (record x) (record y) :=
  rescue_mirrored h fun _ => (say_steady _).seq (fail_mirrored _)

end State

end SentenceScript
