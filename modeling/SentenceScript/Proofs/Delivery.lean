import SentenceScript.Proofs.Lockstep
import SentenceScript.Proofs.Unrolling

namespace SentenceScript

open SentenceScript.Action Text Sentence

/-- The state with lines before those of its log. -/
def State.after (s : State) (before : List String) : State := { s with log := before ++ s.log }

def Outcome.after (before : List String) : Outcome → Outcome
  | .ok _ t => .ok () (t.after before)
  | .error e t => .error e (t.after before)

namespace Action

/-- An action that never looks at the log, and only adds to it. -/
def Unread (x : Action Unit) : Prop :=
  ∀ s before, x (State.after s before) = Outcome.after before (x s)

theorem Plain.unread {x : Action Unit} (h : Plain x) : Unread x := by
  intro s before
  rcases h s with ⟨_, t, -, ht⟩ | ⟨e, -, he⟩
  · have hs : x s = .ok () (t.within s.loop []) := ht s.loop []
    rw [hs]
    exact ht s.loop before
  · have hs : x s = .error e s := he s.loop []
    rw [hs]
    exact he s.loop before

theorem Unread.record {x : Action Unit} (hx : Unread x) : Unread (State.record x) := by
  intro s before
  have hs := hx s before
  cases h : x s with
  | ok _ t =>
      rw [h] at hs
      rw [State.record_ok h, State.record_ok hs]
      rfl
  | error e t =>
      rw [h] at hs
      rw [State.record_error h, State.record_error hs]
      simp only [Outcome.after, State.after, State.say, List.append_assoc]

end Action

theorem unread_lockstep (world : World) (before : List String) :
    Outcome.Lockstep world world (fun s t => t = s.after before)
      fun _ _ o o' => o' = o.after before where
  maxPasses := rfl
  bindings := by
    rintro s _ rfl
    rfl
  loop := by
    rintro s _ rfl
    rfl
  setLoop := by
    rintro s _ rfl loop
    rfl
  act := by
    rintro sentence hn finish s _ rfl
    exact (Sentence.act_plain world finish hn).unread s before
  refl := by
    rintro s _ rfl
    rfl
  say := by
    rintro s _ rfl line
    simp only [Outcome.after, State.after, State.say, List.append_assoc]
  refuse := by
    rintro s _ e rfl -
    rfl
  overrun := by
    rintro s _ rfl
    rfl
  start := by
    rintro s _ rfl - kind line
    simp only [Outcome.after, State.after, State.say, List.append_assoc]
  finish := by
    rintro s _ kind lines o _ rfl - rfl
    cases o with
    | ok _ t =>
        simp only [Outcome.finishLoop, Outcome.after, State.after, State.say, List.append_assoc]
    | error e t => rfl
  failure := by
    rintro s t o _ rfl
    cases o with
    | ok | error => rfl
  next h := by
    cases h
    rfl
  trans _ h' := h'

namespace Text

/-- A row without the carriage return that belongs to its line feed. -/
def dropReturn (row : List Char) : List Char :=
  if row.getLast? = some '\r' then row.dropLast else row

/-- The lines of a text, as they are handed over one by one: the rows that a line feed ends, and the
row behind the last of them if it has any characters. -/
def lines (source : String) : List String :=
  let all := rows source.toList
  (all.dropLast.map dropReturn ++ (all.getLast?.filter (!·.isEmpty)).toList).map String.ofList

theorem strip_dropReturn (row : List Char) : strip (dropReturn row) = strip row := by
  unfold dropReturn
  split
  · next h =>
      obtain ⟨front, rfl⟩ : ∃ front, row = front ++ ['\r'] := List.getLast?_eq_some_iff.1 h
      rw [List.dropLast_concat, strip_append_blanks (List.forall_mem_singleton.2 rfl)]
  · rfl

theorem trim_ofList (s : List Char) : trim (String.ofList s) = String.ofList (strip s) := by
  rw [trim, String.toList_ofList]

theorem collected_map_ofList (all : List (List Char)) :
    collected (all.map String.ofList) = (all.map strip).filterMap fun row =>
      if row.isEmpty then none else some (String.ofList row) := by
  induction all with
  | nil => rfl
  | cons row rest ih =>
      simp only [collected, List.map_cons, trim_ofList, List.filter_cons, List.filterMap_cons] at ih ⊢
      by_cases h : strip row = [] <;> simpa [h] using ih

theorem collected_lines (source : String) : collected (lines source) = scriptLines source := by
  obtain ⟨front, last, h⟩ : ∃ front last, rows source.toList = front ++ [last] :=
    ⟨_, _, (List.dropLast_concat_getLast (rows_ne_nil _)).symm⟩
  rw [lines, scriptLines, collected_map_ofList, h]
  simp only [List.dropLast_concat, List.getLast?_concat, List.map_append, List.map_map,
    List.filterMap_append, Function.comp_def, strip_dropReturn]
  cases last with
  | nil => rfl
  | cons c row => rfl

theorem scriptLines_append (a b : String) :
    scriptLines (a ++ "\n" ++ b) = scriptLines a ++ scriptLines b := by
  have hl : (a ++ "\n" ++ b).toList = a.toList ++ '\n' :: b.toList := by simp
  rw [scriptLines, hl, rows_append, List.map_append, List.filterMap_append]
  rfl

end Text

namespace State

theorem feed_trim (world : World) (line : String) : feed world (trim line) = feed world line := by
  have ht : trim (trim line) = trim line := by
    simp only [trim, String.toList_ofList, strip_strip]
  simp only [feed, ht]

theorem feedAll_collected_eq (world : World) (lines : List String) (s : State) :
    feedAll world (collected lines) s = feedAll world lines s := by
  induction lines generalizing s with
  | nil => rfl
  | cons line rest ih =>
      by_cases hb : (trim line).isEmpty
      · have hc : collected (line :: rest) = collected rest := by simp [collected, hb]
        rw [hc, feedAll_cons_ok (feed_blank hb), ih]
      · have hc : collected (line :: rest) = trim line :: collected rest := by simp [collected, hb]
        rw [hc]
        cases h : feed world line s with
        | ok _ t =>
            have ht := (congrFun (feed_trim world line) s).trans h
            rw [feedAll_cons_ok h, feedAll_cons_ok ht, ih]
        | error e t =>
            have ht := (congrFun (feed_trim world line) s).trans h
            rw [feedAll_cons_error h, feedAll_cons_error ht]

/-- What follows a successful part of a script, recorded from there on. -/
theorem record_feedAll_append {world : World} {first rest : List String} {s t : State}
    (h : feedAll world first s = .ok () t) :
    record (feedAll world (first ++ rest)) s = record (feedAll world rest) t := by
  have ha : feedAll world (first ++ rest) s = feedAll world rest t := feedAll_append_ok h
  cases hr : feedAll world rest t with
  | ok _ u => rw [record_ok hr, record_ok (ha.trans hr)]
  | error e u => rw [record_error hr, record_error (ha.trans hr)]

theorem execute_unread (world : World) (line : String) : Unread (execute world line) :=
  fun s before => (unread_lockstep world before).execute line s _ rfl

theorem feed_unread (world : World) (line : String) : Unread (feed world line) := by
  refine fun s before => (unread_lockstep world before).feed ?_ line s _ rfl
  rintro s _ kind lines text rfl -
  rfl

theorem feedAll_unread (world : World) (lines : List String) : Unread (feedAll world lines) := by
  refine fun s before => (unread_lockstep world before).feedAll ?_ lines s _ rfl
  rintro s _ kind lines text rfl -
  rfl

theorem record_after (world : World) (lines : List String) (t : State) :
    record (feedAll world lines) t =
      Outcome.after t.log (record (feedAll world lines) { t with log := [] }) := by
  have h := (feedAll_unread world lines).record { t with log := [] } t.log
  rwa [after, List.append_nil] at h

end State

namespace Session

/-- Feeds lines in turn, up to the first that fails. -/
def feedEach (x : Session) : List String → Session × Except Failure Unit
  | [] => (x, .ok ())
  | line :: rest =>
      match (x.feed line).result with
      | .ok _ => feedEach (x.feed line).session rest
      | .error e => ((x.feed line).session, .error e)

theorem feedEach_eq (x : Session) (lines : List String) :
    x.feedEach lines =
      let o : Outcome := State.record (State.feedAll x.world lines) x.state
      ({ x with state := o.state }, o.failure.elim (.ok ()) .error) := by
  induction lines generalizing x with
  | nil => rfl
  | cons line rest ih =>
      cases h : State.feed x.world line x.state with
      | ok _ t =>
          have hf : x.feed line = x.step x.state.log.length (.ok () t) fun _ => () := by
            rw [feed, State.record_ok h]
          have ha : State.feedAll x.world [line] x.state = .ok () t :=
            State.feedAll_singleton.trans h
          have hr : State.record (State.feedAll x.world ([line] ++ rest)) x.state =
              State.record (State.feedAll x.world rest) t := State.record_feedAll_append ha
          rw [List.singleton_append] at hr
          rw [feedEach, hf, hr]
          exact ih { x with state := t }
      | error e t =>
          have hf : x.feed line = x.step x.state.log.length
              (.error e (t.say ("Error: " ++ e.message))) fun _ => () := by
            rw [feed, State.record_error h]
          rw [feedEach, hf, State.record_error (State.feedAll_cons_error h)]
          rfl

end Session

/-- A script may be run in two pieces, or its second piece line by line. What fails in the first piece
ends the script. What follows a first piece that succeeds does the same as in the whole script and
writes the same lines behind those of the first. -/
theorem run_in_pieces (x : Session) (a b : String) :
    let whole := x.run (a ++ "\n" ++ b)
    let first := x.run a
    let second := first.session.run b
    (∀ e, first.result = .error e → whole.result = .error e ∧ whole.session = first.session) ∧
    ∀ output, first.result = .ok output →
      whole.result = second.result.map (output ++ ·) ∧
      whole.session.world = second.session.world ∧
      whole.session.state = second.session.state.after output ∧
      first.session.feedEach (Text.lines b) = (whole.session, whole.result.map fun _ => ()) := by
  intro whole first second
  cases h : State.feedAll x.world (scriptLines a) { x.state with log := [] } with
  | error e t =>
      -- The second piece is never reached.
      have hw : whole = first := by
        simp only [whole, first, Session.run, scriptLines_append]
        rw [State.record_error h, State.record_error (State.feedAll_append_error h)]
      rw [hw]
      refine ⟨fun e he => ⟨he, rfl⟩, fun output ho => ?_⟩
      simp [first, Session.run, Session.step, State.record_error h, Outcome.failure] at ho
  | ok _ t =>
      have hf : first = x.step 0 (.ok () t) (·.log) := by
        simp only [first, Session.run]
        rw [State.record_ok h]
      let o : Outcome := State.record (State.feedAll x.world (scriptLines b)) { t with log := [] }
      have hs : second = { x with state := t }.step 0 o (·.log) := by
        simp only [second, hf]
        rfl
      have ho : State.record (State.feedAll x.world (scriptLines b)) t = o.after t.log :=
        State.record_after x.world _ t
      have hw : whole = x.step 0 (o.after t.log) (·.log) := by
        simp only [whole, Session.run, scriptLines_append]
        rw [State.record_feedAll_append h, ho]
      have he : first.session.feedEach (Text.lines b) =
          ({ x with state := (o.after t.log).state },
            (o.after t.log).failure.elim (.ok ()) .error) := by
        have hl : State.feedAll x.world (Text.lines b) = State.feedAll x.world (scriptLines b) := by
          funext s
          rw [← collected_lines, State.feedAll_collected_eq]
        rw [hf, Session.feedEach_eq]
        simp only [Session.step, Outcome.state, hl, ho]
      rw [hw, hs, he, hf]
      constructor
      · intro e he
        cases he
      · intro output ho
        obtain rfl : t.log = output := by cases ho; rfl
        cases o with
        | ok _ u => exact ⟨rfl, rfl, rfl, rfl⟩
        | error e u => exact ⟨rfl, rfl, rfl, rfl⟩

/-- A loop that is left open by the first piece and ended by the second, and an end without a loop. -/
theorem run_in_pieces_open_loop :
    let x : Session := ⟨⟨{}, Canned.services .epoch⟩, {}⟩
    let first := x.run "repeat 2 times\r\n  show \"a\""
    let whole := x.run ("repeat 2 times\r\n  show \"a\"" ++ "\n" ++ "\r\n\tEnd\n")
    first.result = .ok ["Starting to repeat 2 times..."] ∧
      whole.result =
        (first.session.run "\r\n\tEnd\n").result.map (["Starting to repeat 2 times..."] ++ ·) ∧
      first.session.feedEach ["", "\tEnd"] = (whole.session, whole.result.map fun _ => ()) ∧
      (x.run ("end" ++ "\n" ++ "show \"a\"")).result = .error .noActiveLoop := by
  intro x first whole
  have hfirst : first.result = .ok ["Starting to repeat 2 times..."] := by
    have hl : scriptLines "repeat 2 times\r\n  show \"a\"" = [repeatHeader 2, "show \"a\""] := by
      decide
    have hopen := State.feed_repeat x.world 2 (s := {}) rfl
    have hkept : State.feed x.world "show \"a\""
        { loop := .collecting (.times 2) [], log := ["Starting to repeat 2 times..."] } = .ok () _ :=
      State.feed_kept (by decide) rfl (by decide)
    have hall := (State.feedAll_cons_ok hopen).trans (State.feedAll_singleton.trans hkept)
    simp only [first, Session.run, hl]
    rw [State.record_ok hall]
    rfl
  have hend : (x.run "end").result = .error .noActiveLoop := by
    have hf : State.feed x.world "end" {} = .error .noActiveLoop {} := by
      have hc : (classify (trim "end")).command = .endLoop := by rw [classify_trim]; rfl
      rw [State.feed_idle (by decide) rfl, State.execute, execute_leaf _ _ (by simp [hc])]
      simp only [act, hc]
      exact Replay.close_idle x.world rfl
    have hl : scriptLines "end" = ["end"] := by decide
    simp only [Session.run, hl]
    rw [State.record_error (State.feedAll_singleton.trans hf)]
    rfl
  have hb : Text.lines "\r\n\tEnd\n" = ["", "\tEnd"] := by decide
  obtain ⟨hr, -, -, hfed⟩ := (run_in_pieces x _ "\r\n\tEnd\n").2 _ hfirst
  rw [hb] at hfed
  exact ⟨hfirst, hr, hfed, ((run_in_pieces x "end" _).1 _ hend).1⟩

end SentenceScript
