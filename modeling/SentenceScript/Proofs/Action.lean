import SentenceScript.Run.Act

namespace SentenceScript

namespace State

/-- The state with another loop, and with lines before those of its log. -/
def within (s : State) (loop : Loop) (before : List String) : State :=
  { s with loop, log := before ++ s.log }

@[simp] theorem within_log (s : State) (loop : Loop) (before : List String) :
    (s.within loop before).log = before ++ s.log := rfl

/-- Every variable of the first state is one of the second. -/
def Keeps (s t : State) : Prop :=
  ∀ name, (s.bindings.get? name).isSome → (t.bindings.get? name).isSome

theorem Keeps.refl (s : State) : s.Keeps s := fun _ h => h

theorem Keeps.trans {s t u : State} (h : s.Keeps t) (h' : t.Keeps u) : s.Keeps u :=
  fun name hn => h' name (h name hn)

/-- The failures that a state can give outside loops: a variable or a task is reported missing only if
it is, and no loop overruns. -/
def Refuses (s : State) : Failure → Prop
  | .undefinedVariable name => s.bindings.get? name = none
  | .taskNotFound name => ∀ task ∈ s.tasks, task.name ≠ name
  | .loopOverrun _ => False
  | _ => True

end State

def Outcome.within (loop : Loop) (before : List String) : Outcome → Outcome
  | .ok _ t => .ok () (t.within loop before)
  | .error e t => .error e (t.within loop before)

namespace Action

variable {α β : Type}

theorem bind_ok {x : Action α} {f : α → Action β} {s t : State} {a : α} (h : x s = .ok a t) :
    (x >>= f) s = f a t := by
  simp only [bind, EStateM.bind, h]

theorem bind_error {x : Action α} {f : α → Action β} {s t : State} {e : Failure}
    (h : x s = .error e t) : (x >>= f) s = .error e t := by
  simp only [bind, EStateM.bind, h]

theorem tryCatch_ok {x : Action α} {f : Failure → Action α} {s t : State} {a : α}
    (h : x s = .ok a t) : tryCatch x f s = .ok a t := by
  change EStateM.tryCatch x f s = _
  delta EStateM.tryCatch
  rw [h]

theorem tryCatch_error {x : Action α} {f : Failure → Action α} {s t : State} {e : Failure}
    (h : x s = .error e t) : tryCatch x f s = f e t := by
  change EStateM.tryCatch x f s = _
  delta EStateM.tryCatch
  rw [h]
  rfl

theorem get_bind (f : State → Action β) (s : State) : (get >>= f) s = f s s := rfl

theorem forM_cons (f : α → Action Unit) (a : α) (rest : List α) :
    (a :: rest).forM f = (f a >>= fun _ => rest.forM f) := rfl

theorem forM_congr {f g : α → Action Unit} {l : List α} (h : ∀ a ∈ l, f a = g a) :
    l.forM f = l.forM g := by
  induction l with
  | nil => rfl
  | cons a rest ih =>
      obtain ⟨ha, hr⟩ := List.forall_mem_cons.1 h
      rw [forM_cons, forM_cons, ha, ih hr]

theorem forM_append (f : α → Action Unit) (first rest : List α) :
    (first ++ rest).forM f = (first.forM f >>= fun _ => rest.forM f) := by
  induction first with
  | nil => rfl
  | cons a first ih => rw [List.cons_append, forM_cons, forM_cons, bind_assoc, ih]

theorem lookup_some {s : State} {name : String} {value : Value}
    (h : s.bindings.get? name = some value) : lookup name s = .ok value s := by
  simp only [lookup, get_bind, State.lookup, h, Option.elim_some]
  rfl

theorem lookup_none {s : State} {name : String} (h : s.bindings.get? name = none) :
    lookup name s = .error (.undefinedVariable name) s := by
  simp only [lookup, get_bind, State.lookup, h, Option.elim_none]
  rfl

/-- Success with a result and a state, in every loop and after every log. -/
def Gives (x : Action α) (s : State) (a : α) (t : State) : Prop :=
  ∀ loop before, x (s.within loop before) = .ok a (t.within loop before)

/-- Failure with no change, in every loop and after every log. -/
def Refused (x : Action α) (s : State) (e : Failure) : Prop :=
  s.Refuses e ∧ ∀ loop before, x (s.within loop before) = .error e (s.within loop before)

/-- An action that changes nothing. -/
def Reading (x : Action α) : Prop :=
  ∀ s, (∃ a, Gives x s a s) ∨ ∃ e, Refused x s e

/-- An action that never fails. -/
def Writing (x : Action α) : Prop :=
  ∀ s, ∃ a t, s.Keeps t ∧ Gives x s a t

/-- An action that does all or nothing. -/
def Plain (x : Action α) : Prop :=
  ∀ s, (∃ a t, s.Keeps t ∧ Gives x s a t) ∨ ∃ e, Refused x s e

theorem Gives.bind {x : Action α} {f : α → Action β} {s t u : State} {a : α} {b : β}
    (hx : Gives x s a t) (hf : Gives (f a) t b u) : Gives (x >>= f) s b u :=
  fun loop before => (bind_ok (hx loop before)).trans (hf loop before)

theorem Gives.bind_refused {x : Action α} {f : α → Action β} {s : State} {a : α} {e : Failure}
    (hx : Gives x s a s) (hf : Refused (f a) s e) : Refused (x >>= f) s e :=
  ⟨hf.1, fun loop before => (bind_ok (hx loop before)).trans (hf.2 loop before)⟩

theorem Refused.bind {x : Action α} {f : α → Action β} {s : State} {e : Failure}
    (hx : Refused x s e) : Refused (x >>= f) s e :=
  ⟨hx.1, fun loop before => bind_error (hx.2 loop before)⟩

theorem Reading.plain {x : Action α} (h : Reading x) : Plain x := by
  intro s
  rcases h s with ⟨a, ha⟩ | he
  · exact .inl ⟨a, s, .refl s, ha⟩
  · exact .inr he

theorem Writing.plain {x : Action α} (h : Writing x) : Plain x := fun s => .inl (h s)

theorem Reading.bind {x : Action α} {f : α → Action β} (hx : Reading x)
    (hf : ∀ a, Reading (f a)) : Reading (x >>= f) := by
  intro s
  rcases hx s with ⟨a, ha⟩ | ⟨e, he⟩
  · rcases hf a s with ⟨b, hb⟩ | ⟨e, he⟩
    · exact .inl ⟨b, ha.bind hb⟩
    · exact .inr ⟨e, ha.bind_refused he⟩
  · exact .inr ⟨e, he.bind⟩

theorem Writing.bind {x : Action α} {f : α → Action β} (hx : Writing x)
    (hf : ∀ a, Writing (f a)) : Writing (x >>= f) := by
  intro s
  obtain ⟨a, t, hk, ha⟩ := hx s
  obtain ⟨b, u, hk', hb⟩ := hf a t
  exact ⟨b, u, hk.trans hk', ha.bind hb⟩

/-- A command that does all its reading first does all or nothing. -/
theorem Reading.bind_plain {x : Action α} {f : α → Action β} (hx : Reading x)
    (hf : ∀ a, Plain (f a)) : Plain (x >>= f) := by
  intro s
  rcases hx s with ⟨a, ha⟩ | ⟨e, he⟩
  · rcases hf a s with ⟨b, t, hk, hb⟩ | ⟨e, he⟩
    · exact .inl ⟨b, t, hk, ha.bind hb⟩
    · exact .inr ⟨e, ha.bind_refused he⟩
  · exact .inr ⟨e, he.bind⟩

/-- An action that works alike in every loop and after every log. Unlike a plain one it may fail with
some of its work done. -/
def Framed (x : Action Unit) : Prop :=
  ∀ s, ∃ o : Outcome, ∀ loop before, x (State.within s loop before) = o.within loop before

theorem Plain.framed {x : Action Unit} (h : Plain x) : Framed x := by
  intro s
  rcases h s with ⟨_, t, -, ht⟩ | ⟨e, -, he⟩
  · exact ⟨.ok () t, ht⟩
  · exact ⟨.error e s, he⟩

theorem Framed.bind {x : Action Unit} {f : Unit → Action Unit} (hx : Framed x)
    (hf : Framed (f ())) : Framed (x >>= f) := by
  intro s
  obtain ⟨o, ho⟩ := hx s
  cases o with
  | ok _ t =>
      obtain ⟨o', ho'⟩ := hf t
      exact ⟨o', fun loop before => (bind_ok (ho loop before)).trans (ho' loop before)⟩
  | error e t => exact ⟨.error e t, fun loop before => bind_error (ho loop before)⟩

theorem forM_framed {f : α → Action Unit} {l : List α} (h : ∀ a ∈ l, Framed (f a)) :
    Framed (l.forM f) := by
  induction l with
  | nil => exact fun s => ⟨.ok () s, fun _ _ => rfl⟩
  | cons a rest ih =>
      exact (h a (by simp)).bind (ih fun b hb => h b (by simp [hb]))

/-- A look at the state that does not depend on the loop or the log. -/
theorem get_bind_plain {f : State → Action β}
    (hf : ∀ s, (∃ b t, s.Keeps t ∧ Gives (f s) s b t) ∨ ∃ e, Refused (f s) s e)
    (hw : ∀ s loop before, f (State.within s loop before) = f s) : Plain (get >>= f) := by
  intro s
  have hg (loop : Loop) (before : List String) :
      (get >>= f) (s.within loop before) = f s (s.within loop before) := by
    rw [get_bind, hw]
  rcases hf s with ⟨b, t, hk, hb⟩ | ⟨e, he, hf⟩
  · exact .inl ⟨b, t, hk, fun loop before => (hg loop before).trans (hb loop before)⟩
  · exact .inr ⟨e, he, fun loop before => (hg loop before).trans (hf loop before)⟩

theorem pure_reading (a : α) : Reading (pure a) := fun _ => .inl ⟨a, fun _ _ => rfl⟩

theorem throw_reading {e : Failure} (h : ∀ s : State, s.Refuses e) : Reading (throw e : Action α) :=
  fun s => .inr ⟨e, h s, fun _ _ => rfl⟩

theorem modify_writing {f : State → State} (hk : ∀ s, State.Keeps s (f s))
    (hw : ∀ s loop before, f (State.within s loop before) = (f s).within loop before) :
    Writing (modify f) :=
  fun s => ⟨(), f s, hk s, fun loop before => congrArg (EStateM.Result.ok ()) (hw s loop before)⟩

theorem say_writing (line : String) : Writing (say line) :=
  modify_writing (fun s => .refl s) fun s loop before => by simp [State.say, State.within]

theorem sayAll_writing (lines : List String) : Writing (sayAll lines) :=
  modify_writing (fun s => .refl s) fun s loop before => by simp [State.sayAll, State.within]

theorem assign_writing (name : String) (value : Value) : Writing (assign name value) := by
  refine modify_writing (fun s other h => ?_) fun _ _ _ => rfl
  simp only [State.assign, Bindings.get?_put]
  split <;> simp [h]

/-- A command that sets one part of the state, neither a variable nor the loop, and says so. -/
theorem modify_say_writing {f : State → State} {line : String}
    (hb : ∀ s, (f s).bindings = s.bindings)
    (hw : ∀ s loop before, f (State.within s loop before) = (f s).within loop before) :
    Writing (do modify f; say line) :=
  (modify_writing (fun s name h => by rwa [hb s]) hw).bind fun _ => say_writing line

theorem assign_say_writing (name : String) (value : Value) (line : String) :
    Writing (do assign name value; say line) :=
  (assign_writing name value).bind fun _ => say_writing line

theorem lookup_reading (name : String) : Reading (lookup name) := by
  intro s
  cases hv : s.bindings.get? name with
  | some value => exact .inl ⟨value, fun loop before => lookup_some hv⟩
  | none => exact .inr ⟨.undefinedVariable name, hv, fun loop before => lookup_none hv⟩

theorem demand_reading (step : MissingStep) {part : State → Option α}
    (hp : ∀ s loop before, part (State.within s loop before) = part s) :
    Reading (demand step part) := by
  intro s
  cases hv : part s with
  | some a => exact .inl ⟨a, fun loop before => by simp only [demand, get_bind, hp, hv]; rfl⟩
  | none =>
      exact .inr ⟨.missing step, trivial, fun loop before => by
        simp only [demand, get_bind, hp, hv]; rfl⟩

theorem ask_reading (answer : Except ServiceError α) : Reading (ask answer) := by
  cases answer with
  | ok a => exact pure_reading a
  | error e => exact throw_reading fun _ => trivial

end Action

end SentenceScript
