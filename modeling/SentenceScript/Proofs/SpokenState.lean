import SentenceScript.Proofs.SnapshotText
import SentenceScript.Proofs.SpokenSentences

namespace SentenceScript

open Text

/-- The value that is read back from its spoken form. -/
def Value.unsigned : Value → Value
  | .number n => .number (if n == 0 then 0 else n)
  | .text s => .text s

def Bindings.unsigned (b : Bindings) : Bindings := b.map fun p => (p.1, p.2.unsigned)

theorem Bindings.names_unsigned (b : Bindings) : b.unsigned.names = b.names := List.map_map

namespace Speech

def variableParts : String × Value → List Part
  | (name, .number n) => numberParts name.toList (numberText n).toList
  | (name, .text s) => textParts name.toList s.toList

def sentences (s : State) : List (List Part) :=
  s.bindings.map variableParts ++ s.tasks.map (fun t => taskParts t.name.toList t.status.toList) ++
    s.endpoint.toList.map fun url => endpointParts url.toList

section OfState

open String (toList_append)

theorem ofNumber_eq (name : String) (n : Float) : ofVariable (name, .number n) =
    String.ofList (spoken (numberParts name.toList (numberText n).toList) ++ ['.']) := by
  have hwords : "Create a number called ".toList =
      "Create ".toList ++ ("a ".toList ++ "number called ".toList) := by decide
  refine String.ofList_toList.symm.trans (congrArg String.ofList ?_)
  change ("Create a number called " ++ name ++ " with value " ++ numberText n ++ ".").toList = _
  rw [toList_append, toList_append, toList_append, toList_append, hwords]
  simp only [spoken, numberParts, List.flatMap_cons, List.flatMap_nil, List.append_assoc]
  rfl

theorem ofText_eq (name t : String) : ofVariable (name, .text t) =
    String.ofList (spoken (textParts name.toList t.toList) ++ ['.']) := by
  have hwords : "Create a string called ".toList =
      "Create ".toList ++ ("a ".toList ++ ("string".toList ++ " called ".toList)) := by decide
  have hopen : " with value \"".toList = " with value ".toList ++ ['"'] := by decide
  refine String.ofList_toList.symm.trans (congrArg String.ofList ?_)
  change ("Create a string called " ++ name ++ " with value \"" ++ t ++ "\".").toList = _
  rw [toList_append, toList_append, toList_append, toList_append, hwords, hopen]
  simp only [spoken, textParts, List.flatMap_cons, List.flatMap_nil, List.append_assoc,
    Part.spoken_quoted]
  rfl

theorem ofTask_eq (t : Task) : ofTask t =
    String.ofList (spoken (taskParts t.name.toList t.status.toList) ++ ['.']) := by
  have hwords : "Create a task called \"".toList =
      "Create ".toList ++ ("a ".toList ++ ("task called ".toList ++ ['"'])) := by decide
  have hstatus : "\" with status \"".toList = ['"'] ++ (" with status ".toList ++ ['"']) := by decide
  refine String.ofList_toList.symm.trans (congrArg String.ofList ?_)
  change ("Create a task called \"" ++ t.name ++ "\" with status \"" ++ t.status ++ "\".").toList = _
  rw [toList_append, toList_append, toList_append, toList_append, hwords, hstatus]
  simp only [spoken, taskParts, List.flatMap_cons, List.flatMap_nil, List.append_assoc,
    Part.spoken_quoted]
  rfl

theorem ofEndpoint_eq (url : String) : ofEndpoint url =
    String.ofList (spoken (endpointParts url.toList) ++ ['.']) := by
  have hwords : "Connect to the API at \"".toList =
      "Connect to ".toList ++ ("the ".toList ++ ("API at ".toList ++ ['"'])) := by decide
  refine String.ofList_toList.symm.trans (congrArg String.ofList ?_)
  change ("Connect to the API at \"" ++ url ++ "\".").toList = _
  rw [toList_append, toList_append, hwords]
  simp only [spoken, endpointParts, List.flatMap_cons, List.flatMap_nil, List.append_assoc,
    Part.spoken_quoted]
  rfl

theorem ofState_eq (s : State) : ofState s = String.ofList (join ((sentences s).map spoken)) := by
  have hvariables : s.bindings.map ofVariable =
      s.bindings.map fun p => String.ofList (spoken (variableParts p) ++ ['.']) := by
    apply List.map_congr_left
    rintro ⟨name, n | t⟩ -
    · exact ofNumber_eq name n
    · exact ofText_eq name t
  rw [ofState, hvariables, funext ofTask_eq, funext ofEndpoint_eq, join, String.ofList_toList]
  simp only [sentences, List.map_append, List.map_map]
  rfl

end OfState

end Speech

/-- A value that can be spoken. -/
def Value.Speakable : Value → Prop
  | .number n => n.isFinite = true
  | .text t => Speech.Quotable t.toList

instance : DecidablePred Value.Speakable
  | .number _ => inferInstanceAs (Decidable (_ = _))
  | .text _ => inferInstanceAs (Decidable (Speech.Quotable _))

/-- A state whose speech can be run. -/
structure State.Speakable (s : State) : Prop where
  names_nodup : s.bindings.names.Nodup
  bindings : ∀ p ∈ s.bindings, Speech.IsSmallName p.1.toList ∧ p.2.Speakable
  tasks : ∀ t ∈ s.tasks, Speech.Quotable t.name.toList ∧ Speech.Quotable t.status.toList
  endpoint : ∀ url ∈ s.endpoint, Speech.Quotable url.toList

namespace Speech

theorem variableParts_complete {p : String × Value} (hn : IsSmallName p.1.toList)
    (hv : p.2.Speakable) : Complete (variableParts p) := by
  obtain ⟨name, n | t⟩ := p
  · exact numberParts_complete hn (Decimal.isNumeral_numberText hv)
  · exact textParts_complete hn hv

theorem sentences_complete {s : State} (h : s.Speakable) :
    ∀ parts ∈ sentences s, Complete parts := by
  intro parts hp
  simp only [sentences, List.mem_append, List.mem_map, Option.mem_toList] at hp
  rcases hp with (⟨p, hp, rfl⟩ | ⟨t, ht, rfl⟩) | ⟨url, hu, rfl⟩
  · exact variableParts_complete (h.bindings p hp).1 (h.bindings p hp).2
  · exact taskParts_complete (h.tasks t ht).1 (h.tasks t ht).2
  · exact endpointParts_complete (h.endpoint url hu)

/-- The speech of a state is cut into the lines of its own sentences. -/
theorem scriptLines_toLines {s : State} (h : s.Speakable) :
    scriptLines (toLines (ofState s)) =
      (sentences s).map fun parts => String.ofList (written parts) := by
  have hc := sentences_complete h
  have hlower : ∀ parts ∈ sentences s, lowerUnquoted false (spoken parts) = written parts :=
    fun parts hp => lower_spoken (hc parts hp).sound
  have hlines : ∀ l ∈ (sentences s).map written, IsLine l := by
    intro l hl
    obtain ⟨parts, hp, rfl⟩ := List.mem_map.1 hl
    exact (hc parts hp).isLine
  have hspoken : ∀ l ∈ (sentences s).map spoken, Spoken l := by
    intro l hl
    obtain ⟨parts, hp, rfl⟩ := List.mem_map.1 hl
    exact (hc parts hp).spoken
  have hall : ((sentences s).map spoken).map (fun l => String.ofList (lowerUnquoted false l)) =
      ((sentences s).map written).map String.ofList := by
    rw [List.map_map, List.map_map]
    exact List.map_congr_left fun parts hp => congrArg String.ofList (hlower parts hp)
  rw [ofState_eq, toLines_join hspoken, hall, scriptLines_intercalate hlines, List.map_map]
  rfl

section Run

variable (world : World) {s : State}

/-- A variable is created with its value, and a line of the log says so. -/
theorem feed_variable {p : String × Value} (hn : IsSmallName p.1.toList) (hv : p.2.Speakable)
    (hs : s.loop = .closed) :
    ∃ line, State.feed world (String.ofList (written (variableParts p))) s =
      .ok () ((s.assign p.1 p.2.unsigned).say line) := by
  have hl := (variableParts_complete hn hv).isLine
  obtain ⟨name, n | t⟩ := p
  · have hc := classify_numberParts hn (Decimal.isNumeral_numberText hv)
    rw [String.ofList_toList] at hc
    exact ⟨_, State.feed_line world hs hl hc nofun⟩
  · have hc := classify_textParts hn hv
    rw [String.ofList_toList, String.ofList_toList] at hc
    exact ⟨_, State.feed_line world hs hl hc nofun⟩

theorem feed_task {t : Task} (hn : Quotable t.name.toList) (ht : Quotable t.status.toList)
    (hs : s.loop = .closed) :
    ∃ line, State.feed world (String.ofList (written (taskParts t.name.toList t.status.toList))) s =
      .ok () (State.say { s with tasks := s.tasks ++ [t] } line) := by
  have hc := classify_taskParts hn ht
  rw [String.ofList_toList, String.ofList_toList] at hc
  exact ⟨_, State.feed_line world hs (taskParts_complete hn ht).isLine hc nofun⟩

theorem feed_endpoint {url : String} (hu : Quotable url.toList) (hs : s.loop = .closed) :
    ∃ line, State.feed world (String.ofList (written (endpointParts url.toList))) s =
      .ok () (State.say { s with endpoint := some url } line) := by
  have hc := classify_endpointParts hu
  rw [String.ofList_toList] at hc
  exact ⟨_, State.feed_line world hs (endpointParts_complete hu).isLine hc nofun⟩

/-- Lines that each make a change outside loops and say so make all their changes. -/
theorem feedAll_changes {α : Type} {f : State → α → State} {line : α → String} {l : List α}
    (hstep : ∀ a ∈ l, ∀ s : State, s.loop = .closed →
      ∃ text, State.feed world (line a) s = .ok () ((f s a).say text))
    (hloop : ∀ s a, (f s a).loop = s.loop)
    (hlog : ∀ s a log, f { s with log } a = { f s a with log }) (hs : s.loop = .closed) :
    ∃ log, State.feedAll world (l.map line) s = .ok () { l.foldl f s with log } := by
  have hfold (l : List α) (s : State) (log : List String) :
      { l.foldl f { s with log } with log := [] } = { l.foldl f s with log := [] } := by
    induction l generalizing s with
    | nil => rfl
    | cons a l ih => rw [List.foldl_cons, hlog, ih, List.foldl_cons]
  induction l generalizing s with
  | nil => exact ⟨s.log, rfl⟩
  | cons a l ih =>
      obtain ⟨text, ht⟩ := hstep a (by simp) s hs
      obtain ⟨log, hl⟩ := ih (s := (f s a).say text)
        (fun b hb => hstep b (List.mem_cons_of_mem a hb)) ((hloop s a).trans hs)
      refine ⟨log, ?_⟩
      rw [List.map_cons, State.feedAll_cons_ok ht, hl, List.foldl_cons]
      have h := congrArg (fun t : State => { t with log }) (hfold l (f s a) ((f s a).log ++ [text]))
      exact congrArg (EStateM.Result.ok ()) h

theorem feedAll_variables {b : Bindings} (hn : b.names.Nodup)
    (hb : ∀ p ∈ b, IsSmallName p.1.toList ∧ p.2.Speakable) :
    ∃ log, State.feedAll world (b.map fun p => String.ofList (written (variableParts p))) {} =
      .ok () { bindings := b.unsigned, log } := by
  have hfold (s : State) : b.foldl (fun s p => s.assign p.1 p.2.unsigned) s =
      { s with bindings := b.unsigned.foldl (fun b p => b.put p.1 p.2) s.bindings } := by
    clear hn hb
    induction b generalizing s with
    | nil => rfl
    | cons p b ih => exact ih (s.assign p.1 p.2.unsigned)
  have hput : Bindings.ofPairs b.unsigned = b.unsigned :=
    Bindings.ofPairs_eq (by rwa [Bindings.names_unsigned])
  have hall : b.foldl (fun s p => s.assign p.1 p.2.unsigned) ({} : State) =
      { bindings := b.unsigned } :=
    (hfold {}).trans (congrArg (fun b => ({ bindings := b } : State)) hput)
  obtain ⟨log, h⟩ := feedAll_changes world (s := {}) (l := b)
    (fun p hp _ hs => feed_variable world (hb p hp).1 (hb p hp).2 hs) (fun _ _ => rfl)
    (fun _ _ _ => rfl) rfl
  rw [hall] at h
  exact ⟨log, h⟩

theorem feedAll_tasks {l : List Task}
    (hl : ∀ t ∈ l, Quotable t.name.toList ∧ Quotable t.status.toList) (hs : s.loop = .closed) :
    ∃ log, State.feedAll world
        (l.map fun t => String.ofList (written (taskParts t.name.toList t.status.toList))) s =
      .ok () { s with tasks := s.tasks ++ l, log } := by
  have hfold (s : State) : l.foldl (fun s t => { s with tasks := s.tasks ++ [t] }) s =
      { s with tasks := s.tasks ++ l } := by
    clear hl
    induction l generalizing s with
    | nil => rw [List.append_nil]; rfl
    | cons t l ih => rw [List.foldl_cons, ih, List.append_assoc]; rfl
  obtain ⟨log, h⟩ := feedAll_changes world
    (fun t ht _ hs => feed_task world (hl t ht).1 (hl t ht).2 hs) (fun _ _ => rfl)
    (fun _ _ _ => rfl) hs
  rw [hfold] at h
  exact ⟨log, h⟩

theorem feedAll_endpoint {endpoint : Option String} (hu : ∀ url ∈ endpoint, Quotable url.toList)
    (hs : s.loop = .closed) (hn : s.endpoint = none) :
    ∃ log, State.feedAll world
        (endpoint.toList.map fun url => String.ofList (written (endpointParts url.toList))) s =
      .ok () { s with endpoint, log } := by
  cases endpoint with
  | none =>
      have hsame : { s with endpoint := none, log := s.log } = s := by rw [← hn]
      exact ⟨s.log, congrArg (EStateM.Result.ok ()) hsame.symm⟩
  | some url =>
      obtain ⟨line, h⟩ := feed_endpoint world (hu url rfl) hs
      exact ⟨_, State.feedAll_singleton.trans h⟩

/-- The lines of a state, one after the other. -/
theorem feedAll_toLines (h : s.Speakable) :
    ∃ log, State.feedAll world (scriptLines (toLines (ofState s))) {} =
      .ok () { bindings := s.bindings.unsigned, tasks := s.tasks, endpoint := s.endpoint, log } := by
  obtain ⟨log₁, h₁⟩ := feedAll_variables world h.names_nodup h.bindings
  obtain ⟨log₂, h₂⟩ := feedAll_tasks world (s := { bindings := s.bindings.unsigned, log := log₁ })
    h.tasks rfl
  obtain ⟨log₃, h₃⟩ := feedAll_endpoint world
    (s := { bindings := s.bindings.unsigned, tasks := s.tasks, log := log₂ }) h.endpoint rfl rfl
  refine ⟨log₃, ?_⟩
  rw [scriptLines_toLines h, sentences, List.map_append, List.map_append, List.map_map,
    List.map_map, List.map_map]
  exact (State.feedAll_append_ok ((State.feedAll_append_ok h₁).trans h₂)).trans h₃

end Run

end Speech

/-- The speech of a state, run in a new session, brings about its variables, its tasks and its
endpoint in their order, and nothing else but lines of the log. Only zero loses its sign. -/
theorem speech_run_back (world : World) {s : State} (h : s.Speakable) :
    let r := (⟨world, {}⟩ : Session).run (Speech.toLines (Speech.ofState s))
    ∃ log, r.result = .ok log ∧ r.session =
      ⟨world,
        { bindings := s.bindings.unsigned
          tasks := s.tasks
          endpoint := s.endpoint
          log }⟩ := by
  intro r
  obtain ⟨log, hlog⟩ := Speech.feedAll_toLines world h
  have hr : r = _ := Session.run_ok hlog
  rw [hr]
  exact ⟨log, rfl, rfl⟩

/-- Numbers with and without a sign and a fraction, and quoted texts that end with a period. -/
theorem speech_run_back_mixed :
    let s : State :=
      { bindings := [("x_1", .number (-0.0)), ("y", .number (-2.5)), ("_t", .text "A.b Ü.")]
        tasks := [⟨"Call.", ""⟩]
        endpoint := some "https://api.example.com/v1." }
    let r := (⟨⟨{}, Canned.services .epoch⟩, {}⟩ : Session).run (Speech.toLines (Speech.ofState s))
    s.Speakable ∧ ∃ log, r.result = .ok log ∧ r.session =
      ⟨⟨{}, Canned.services .epoch⟩,
        { bindings := [("x_1", .number 0), ("y", .number (-2.5)), ("_t", .text "A.b Ü.")]
          tasks := s.tasks
          endpoint := s.endpoint
          log }⟩ := by
  intro s r
  have hs : s.Speakable := by
    refine ⟨by decide, by decide, by decide, ?_⟩
    rintro url ⟨⟩
    decide
  exact ⟨hs, speech_run_back _ hs⟩

end SentenceScript
