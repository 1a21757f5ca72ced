import SentenceScript.Proofs.Effect
import SentenceScript.Proofs.Path
import SentenceScript.Proofs.ServerTable

namespace SentenceScript

open SentenceScript.Action

/-- One variable has a new value in its place, or is new and comes last. All others are as they
were. -/
def Bindings.Rebound (name : String) (b b' : Bindings) : Prop :=
  (∃ before old value after, b = before ++ (name, old) :: after ∧ name ∉ names before ∧
      b' = before ++ (name, value) :: after) ∨
    name ∉ b.names ∧ ∃ value, b' = b ++ [(name, value)]

/-- The first task of some name is complete. All others are as they were. -/
def Task.Completed (name : String) (tasks tasks' : List Task) : Prop :=
  ∃ before status after, tasks = before ++ ⟨name, status⟩ :: after ∧
    (∀ task ∈ before, task.name ≠ name) ∧ tasks' = before ++ ⟨name, "complete"⟩ :: after

/-- There is another connection under one address, or none. All others are as they were. -/
def Servers.Replaced (url : String) (connection : Option Connection) (s t : Servers) : Prop :=
  t.get? url = connection ∧ ∀ other, other ≠ url → t.get? other = s.get? other

/-- The one thing of a state that a command names. -/
inductive State.Part where
  | nothing
  | binding (name : String)
  | newTask (name status : String)
  | doneTask (name : String)
  | loop (kind : LoopKind)
  | endpoint (address : String)
  | response
  | joined (url : String)
  | left (url : String)
  | request
  | reply

/-- The second state differs from the first in this part and in nothing else, the log included. -/
def State.Part.Changed (s t : State) : State.Part → Prop
  | nothing => t = s
  | binding name => ∃ bindings, Bindings.Rebound name s.bindings bindings ∧ t = { s with bindings }
  | newTask name status => t = { s with tasks := s.tasks ++ [⟨name, status⟩] }
  | doneTask name => ∃ tasks, Task.Completed name s.tasks tasks ∧ t = { s with tasks }
  | loop kind => s.loop = .closed ∧ t = { s with loop := .collecting kind [] }
  | endpoint address => t = { s with endpoint := some address }
  | response => ∃ answer, t = { s with response := some answer }
  | joined url => ∃ connection servers, Servers.Replaced url (some connection) s.servers servers ∧
      t = { s with servers }
  | left url => (s.servers.get? url).isSome = true ∧
      ∃ servers, Servers.Replaced url none s.servers servers ∧ t = { s with servers }
  | request => ∃ message, t = { s with request := some message }
  | reply => ∃ answer, t = { s with reply := some answer }

def Command.part : Command → State.Part
  | .createNumber name _ | .createText name _ | .add _ name | .subtract _ name | .multiply name _
  | .divide name _ | .storeReply name | .measureLength _ name => .binding name
  | .createTask name status => .newTask name status
  | .completeTask name => .doneTask name
  | .repeatLoop times => .loop (.times times)
  | .whileLoop subject comparison _ threshold => .loop (.guarded ⟨subject, comparison, threshold⟩)
  | .connectApi endpoint => .endpoint endpoint
  | .search .. => .response
  | .connectServer url _ => .joined url
  | .disconnectServer url => .left url
  | .sendMessage .. => .request
  | .awaitReply => .reply
  | .conditional .. | .endLoop | .showTasks | .showTasksWith _ | .getResponse | .showVariable _
  | .showText _ | .showResponse | .comment _ | .unknown => .nothing

theorem Bindings.put_rebound (b : Bindings) (name : String) (value : Value) :
    b.Rebound name (b.put name value) := by
  induction b with
  | nil => exact .inr ⟨List.not_mem_nil, value, rfl⟩
  | cons p rest ih =>
      obtain ⟨n, v⟩ := p
      rw [put]
      split
      · next h =>
          subst h
          exact .inl ⟨[], v, value, rest, rfl, List.not_mem_nil, rfl⟩
      · next h =>
          rcases ih with ⟨before, old, new, after, hb, hn, hput⟩ | ⟨hn, new, hput⟩
          · refine .inl ⟨(n, v) :: before, old, new, after, by rw [hb]; rfl, ?_, by rw [hput]; rfl⟩
            exact fun hm => (List.mem_cons.1 hm).elim (fun he => h he.symm) hn
          · refine .inr ⟨fun hm => (List.mem_cons.1 hm).elim (fun he => h he.symm) hn, new, ?_⟩
            rw [hput]
            rfl

theorem Task.completed_of_setStatus? {tasks tasks' : List Task} {name : String}
    (h : setStatus? tasks name completeStatus = some tasks') : Completed name tasks tasks' := by
  induction tasks generalizing tasks' with
  | nil => cases h
  | cons t rest ih =>
      rw [setStatus?] at h
      split at h
      · next hn =>
          cases h
          subst hn
          exact ⟨[], t.status, rest, rfl, List.forall_mem_nil _, rfl⟩
      · next hn =>
          obtain ⟨rest', hr, rfl⟩ := Option.map_eq_some_iff.1 h
          obtain ⟨before, status, after, rfl, hb, rfl⟩ := ih hr
          exact ⟨t :: before, status, after, rfl, List.forall_mem_cons.2 ⟨hn, hb⟩, rfl⟩

theorem Servers.insert_replaced (s : Servers) (url : String) (c : Connection) :
    s.Replaced url (some c) (s.insert url c) :=
  ⟨by rw [get?_insert, if_pos rfl], fun other h => by rw [get?_insert, if_neg h]⟩

theorem Servers.erase_replaced (s : Servers) (url : String) : s.Replaced url none (s.erase url) :=
  ⟨by rw [get?_erase, if_pos rfl], fun other h => by rw [get?_erase, if_neg h]⟩

theorem State.Part.Changed.log {s t : State} {part : Part} (h : part.Changed s t) :
    t.log = s.log := by
  cases part with
  | nothing | newTask | endpoint => rw [h]
  | binding | doneTask =>
      obtain ⟨_, -, rfl⟩ := h
      rfl
  | loop => rw [h.2]
  | joined =>
      obtain ⟨_, _, -, rfl⟩ := h
      rfl
  | left =>
      obtain ⟨-, _, -, rfl⟩ := h
      rfl
  | response | request | reply =>
      obtain ⟨_, rfl⟩ := h
      rfl

theorem Command.Makes.changed {services : Services} {s t : State} {c : Command}
    (h : c.Makes services s t) : c.part.Changed s t := by
  cases c with
  | createNumber | createText | add | subtract | multiply | divide | storeReply | measureLength =>
      obtain ⟨value, rfl⟩ := h
      exact ⟨_, Bindings.put_rebound s.bindings _ value, rfl⟩
  | completeTask name =>
      obtain ⟨tasks, ht, rfl⟩ := h
      exact ⟨tasks, Task.completed_of_setStatus? ht, rfl⟩
  | search query key =>
      obtain ⟨endpoint, response, -, -, rfl⟩ := h
      exact ⟨response, rfl⟩
  | connectServer url protocol =>
      obtain ⟨connection, -, rfl⟩ := h
      exact ⟨connection, _, s.servers.insert_replaced url connection, rfl⟩
  | disconnectServer url =>
      obtain ⟨hc, rfl⟩ := h
      exact ⟨Option.isSome_iff_exists.2 hc, _, s.servers.erase_replaced url, rfl⟩
  | awaitReply =>
      obtain ⟨request, text, -, -, rfl⟩ := h
      exact ⟨_, rfl⟩
  | endLoop | unknown => exact h.elim
  | createTask | repeatLoop | whileLoop | connectApi | sendMessage | conditional | showTasks
  | showTasksWith | getResponse | showVariable | showText | showResponse | comment => exact h

/-- Where no loop is collected, all sentences make of a state what their commands say. -/
theorem Sentence.act_leaves_idle (world : World) (x : Sentence) {s : State}
    (hl : s.loop.isCollecting = false) :
    Leaves (x.act world (Replay.close world)) s (x.command.Makes world.services s) := by
  by_cases h : x.command.HandlesLoop
  · rcases h with h | h
    · obtain ⟨kind, hk⟩ := Option.isSome_iff_exists.1 h
      rcases act_header world (Replay.close world) hk s with ⟨line, hc, hok⟩ | ⟨active, -, he⟩
      · refine .inr ⟨_, [line], ?_, fun hn => absurd hn (List.cons_ne_nil _ _), hok⟩
        obtain ⟨text, command⟩ := x
        cases command with
        | repeatLoop | whileLoop => cases hk; exact ⟨hc, rfl⟩
        | _ => cases hk
      · exact .inl ⟨_, he⟩
    · refine .inl ⟨.noActiveLoop, ?_⟩
      simp only [act, h]
      exact Replay.close_idle world hl
  · exact act_leaves world _ h s

/-- Where no loop is collected, a line that succeeds comes down to one sentence, does what that
sentence does alone, and apart from the log changes the part that its command names and no other. A
line that comes down to a conditional does nothing at all. -/
theorem line_changes_what_it_names {world : World} {line : String} {s t : State}
    (hl : s.loop.isCollecting = false) (h : s.execute world line = .ok () t) :
    ∃ x, (∀ y, Sentence.StopsAt s line y ↔ y = x) ∧
      ((∀ c yes no, x.command ≠ .conditional c yes no) ∨
        ∃ c yes, x.command = .conditional c yes none ∧ c.verdict? s = some false ∧ t = s) ∧
      s.execute world line = s.execute world x.line ∧
      ∃ u lines, x.command.part.Changed s u ∧ t = u.sayAll lines := by
  obtain ⟨x, hx⟩ := Sentence.exists_stopsAt s line
  refine ⟨x, fun y => ⟨fun hy => hy.unique hx, fun hy => hy ▸ hx⟩, ?_⟩
  rcases hx.cases with hc | ⟨c, yes, hc, hv⟩ | ⟨c, yes, no, hc, hv⟩
  · refine ⟨.inl hc, hx.1.execute_eq, ?_⟩
    have hact := (hx.1.execute_leaf hc).symm.trans h
    rcases Sentence.act_leaves_idle world x hl with ⟨e, he⟩ | ⟨u, lines, hm, -, hok⟩
    · cases he.symm.trans hact
    · cases hok.symm.trans hact
      exact ⟨u, lines, hm.changed, rfl⟩
  · cases (hx.1.execute_idle hc hv).symm.trans h
    refine ⟨.inr ⟨c, yes, hc, hv, rfl⟩, hx.1.execute_eq, s, [], by rw [hc]; rfl, ?_⟩
    rw [State.sayAll, List.append_nil]
  · obtain ⟨e, he⟩ := test_of_no_verdict hv
    cases (hx.1.execute_stuck hc he).symm.trans h

/-- Two tasks of one name. -/
def twinTasks : State :=
  { bindings := [("a", .text "v"), ("b", .text "v")], tasks := [⟨"t", "open"⟩, ⟨"t", "open"⟩] }

/-- The sentence behind two conditionals completes the first of the two tasks, and the second stays
open. -/
theorem line_changes_what_it_names_twin_tasks :
    let world : World := ⟨{}, Canned.services .epoch⟩
    let line := "if a is equal to b, if b is equal to a, mark task \"t\" as done"
    let x : Sentence := ⟨"mark task \"t\" as done", .completeTask "t"⟩
    ∃ t, twinTasks.execute world line = .ok () t ∧
      t.tasks = [⟨"t", "complete"⟩, ⟨"t", "open"⟩] ∧ Sentence.StopsAt twinTasks line x ∧
      twinTasks.execute world x.line = .ok () t ∧
      ∃ u lines, State.Part.Changed twinTasks u (.doneTask "t") ∧ t = u.sayAll lines := by
  intro world line x
  have hx : Sentence.classify "mark task \"t\" as done" = x := by rfl
  have hc : (Sentence.classify
      "if a is equal to b, if b is equal to a, mark task \"t\" as done").command =
      .conditional ⟨"a", .equalTo, .named "b"⟩ "if b is equal to a, mark task \"t\" as done" none := by
    rfl
  have hc' : (Sentence.classify "if b is equal to a, mark task \"t\" as done").command =
      .conditional ⟨"b", .equalTo, .named "a"⟩ "mark task \"t\" as done" none := by rfl
  have hstop : Sentence.StopsAt twinTasks line x := by
    refine ⟨.next (by rw [hc]; rfl) (.next (by rw [hc']; rfl) ?_), rfl⟩
    rw [← hx]
    exact .here _
  have hok : twinTasks.execute world line = .ok ()
      ({ twinTasks with tasks := [⟨"t", "complete"⟩, ⟨"t", "open"⟩] }.say
        "Marked task \"t\" as complete") := by
    rw [State.execute, hstop.1.execute_leaf (by simp [x])]
    rfl
  obtain ⟨y, hy, -, halone, hchanged⟩ := line_changes_what_it_names rfl hok
  obtain rfl := (hy x).1 hstop
  exact ⟨_, hok, rfl, hstop, halone.symm.trans hok, hchanged⟩

end SentenceScript
