import SentenceScript.Proofs.Path
import SentenceScript.Proofs.Feeding
import SentenceScript.Proofs.Underflow
import SentenceScript.Proofs.WrittenSentences

namespace SentenceScript

open SentenceScript.Action

/-- The first of these variables that is not there. -/
def State.missing? (s : State) (names : List String) : Option String :=
  names.find? fun name => (s.bindings.get? name).isNone

theorem State.missing?_append (s : State) (names names' : List String) :
    s.missing? (names ++ names') = (s.missing? names).or (s.missing? names') :=
  List.find?_append

def Operand.reads : Operand → List String
  | .literal _ => []
  | .named name => [name]

def Message.reads : Message → List String
  | .literal _ => []
  | .named name => [name]

def Condition.reads (c : Condition) : List String := c.subject :: c.operand.reads

/-- The variables that a command has to find, in the order in which it looks them up. A division by
zero is refused before it looks. -/
def Command.reads : Command → List String
  | .add _ name | .subtract _ name | .multiply name _ | .showVariable name
  | .measureLength name _ => [name]
  | .divide target divisor => if divisor == 0 then [] else [target]
  | .conditional c _ _ => c.reads
  | .sendMessage _ system message => message.reads ++ system.toList
  | _ => []

/-- The variable that a command makes, and its value, if all is there that the command takes it
from. The variable itself may be missing. -/
def Command.stores? (s : State) : Command → Option (String × Value)
  | .createNumber name value => some (name, .number value)
  | .createText name value => some (name, .text value)
  | .measureLength source target => (s.bindings.get? source).map fun value =>
      (target, .number (Decimal.toFloat ⟨false, value.size, 0⟩))
  | .storeReply target => s.reply.map fun reply => (target, .text reply.response)
  | _ => none

namespace Action

variable {α β : Type} {names names' : List String} {s : State}

/-- An action that looks up variables one after another. The first that is missing is reported. -/
def Reads (names : List String) (x : Action α) : Prop :=
  ∀ s : State, (s.missing? names).elim (∃ a, x s = .ok a s) fun name =>
    x s = .error (.undefinedVariable name) s

/-- An action that never reports a variable as missing. -/
def Spares (x : Action α) : Prop := ∀ s name t, x s ≠ .error (.undefinedVariable name) t

/-- An action that reports the first of these variables that is missing, and no other. -/
def Reports (names : List String) (x : Action Unit) (s : State) : Prop :=
  ∀ name, Outcome.failure (x s) = some (.undefinedVariable name) ↔ s.missing? names = some name

theorem pure_reads (a : α) : Reads [] (pure a) := fun _ => ⟨a, rfl⟩

theorem lookup_reads (name : String) : Reads [name] (lookup name) := by
  intro s
  cases h : s.bindings.get? name with
  | none =>
      have hm : s.missing? [name] = some name := by simp [State.missing?, h]
      rw [hm]
      exact lookup_none h
  | some value =>
      have hm : s.missing? [name] = none := by simp [State.missing?, h]
      rw [hm]
      exact ⟨value, lookup_some h⟩

theorem Reads.bind {x : Action α} {f : α → Action β} (hx : Reads names x)
    (hf : ∀ a, Reads names' (f a)) : Reads (names ++ names') (x >>= f) := by
  intro s
  have h := hx s
  rw [State.missing?_append]
  cases hm : s.missing? names with
  | some name =>
      rw [hm] at h
      exact bind_error h
  | none =>
      rw [hm] at h
      obtain ⟨a, ha⟩ := h
      rw [bind_ok ha]
      exact hf a s

theorem Reads.missing_of_ok {x : Action α} (hx : Reads names x) {a : α} {t : State}
    (h : x s = .ok a t) : s.missing? names = none := by
  have hs := hx s
  cases hm : s.missing? names with
  | none => rfl
  | some name =>
      rw [hm] at hs
      cases hs.symm.trans h

theorem Reads.missing_of_error {x : Action α} (hx : Reads names x) {e : Failure} {t : State}
    (h : x s = .error e t) :
    ∃ name, s.missing? names = some name ∧ e = .undefinedVariable name := by
  have hs := hx s
  cases hm : s.missing? names with
  | none =>
      rw [hm] at hs
      obtain ⟨a, ha⟩ := hs
      cases ha.symm.trans h
  | some name =>
      rw [hm] at hs
      cases hs.symm.trans h
      exact ⟨name, rfl, rfl⟩

theorem operand_reads (o : Operand) : Reads o.reads (operand o) := by
  cases o with
  | literal n => exact pure_reads _
  | named name => exact lookup_reads name

theorem test_reads (c : Condition) : Reads c.reads (test c) := by
  have h : Reads ([c.subject] ++ (c.operand.reads ++ [])) (test c) :=
    (lookup_reads c.subject).bind fun _ => (operand_reads c.operand).bind fun _ => pure_reads _
  rwa [List.append_nil] at h

theorem messageText_reads (message : Message) : Reads message.reads (messageText message) := by
  cases message with
  | literal text => exact pure_reads text
  | named name => exact (lookup_reads name).bind fun _ => pure_reads _

theorem promptText_reads (system : Option String) : Reads system.toList (promptText system) := by
  cases system with
  | none => exact pure_reads none
  | some name => exact (lookup_reads name).bind fun _ => pure_reads _

theorem pure_spares (a : α) : Spares (pure a) := by
  intro s name t he
  cases he

theorem modify_spares (f : State → State) : Spares (modify f) := by
  intro s name t he
  cases he

theorem throw_spares {e : Failure} (h : ∀ name, e ≠ .undefinedVariable name) :
    Spares (throw e : Action α) := by
  intro s name t he
  cases he
  exact h name rfl

theorem demand_spares (step : MissingStep) (part : State → Option α) :
    Spares (demand step part) := by
  intro s name t he
  cases h : part s with
  | some a | none =>
      simp only [demand, get_bind, h] at he
      cases he

theorem ask_spares (answer : Except ServiceError α) : Spares (ask answer) := by
  intro s name t he
  cases answer with
  | ok a => cases he
  | error e => cases he

theorem look_spares {f : State → Action α} (h : ∀ s, Spares (f s)) : Spares (get >>= f) :=
  fun s => h s s

theorem Spares.bind {x : Action α} {f : α → Action β} (hx : Spares x) (hf : ∀ a, Spares (f a)) :
    Spares (x >>= f) := by
  intro s name t he
  cases h : x s with
  | ok a u => exact hf a u name t ((bind_ok h).symm.trans he)
  | error e u =>
      cases (bind_error h).symm.trans he
      exact hx s name t h

theorem change_spares (f : State → State) (line : String) : Spares (do modify f; say line) :=
  (modify_spares f).bind fun _ => modify_spares _

theorem openLoop_spares (kind : LoopKind) (announcement : String) :
    Spares (openLoop kind announcement) := by
  refine look_spares fun s => ?_
  cases s.loop.kind? with
  | some active => exact throw_spares fun _ => Failure.noConfusion
  | none => exact change_spares _ _

theorem Spares.reports {x : Action Unit} (hx : Spares x) (s : State) : Reports [] x s := by
  intro name
  refine iff_of_false (fun h => ?_) (Option.some_ne_none name).symm
  cases hr : x s with
  | ok a t =>
      rw [hr] at h
      cases h
  | error e t =>
      rw [hr] at h
      cases h
      exact hx s name t hr

/-- A command that looks up all its variables first reports the first of them that is missing. -/
theorem Reads.reports_bind {x : Action α} {f : α → Action Unit} (hx : Reads names x)
    (hf : ∀ a, Reports names' (f a) s) : Reports (names ++ names') (x >>= f) s := by
  intro name
  have h := hx s
  rw [State.missing?_append]
  cases hm : s.missing? names with
  | some first =>
      rw [hm] at h
      rw [bind_error h]
      simp [Outcome.failure]
  | none =>
      rw [hm] at h
      obtain ⟨a, ha⟩ := h
      rw [bind_ok ha]
      exact hf a name

theorem update_reports (target : String) (f : Float → Float) (done : String) (s : State) :
    Reports [target] (update target f done) s :=
  (lookup_reads target).reports_bind fun _ => (change_spares _ _).reports s

/-- The message is looked up first, then the system prompt. -/
theorem sendMessage_reports (world : World) (model : String) (system : Option String)
    (message : Message) (s : State) :
    Reports (message.reads ++ system.toList) (sendMessage world model system message) s := by
  have h : Reports (message.reads ++ (system.toList ++ [])) (sendMessage world model system message)
      s := by
    refine (messageText_reads message).reports_bind fun _ => ?_
    refine (promptText_reads system).reports_bind fun _ => ?_
    exact Spares.reports ((modify_spares _).bind fun _ => (modify_spares _).bind fun _ =>
      (modify_spares _).bind fun _ => modify_spares _) s
  rwa [List.append_nil] at h

theorem divide_reports (target : String) (divisor : Float) (s : State) :
    Reports (if divisor == 0 then [] else [target]) (divide target divisor) s := by
  unfold divide
  split
  · exact Spares.reports (throw_spares fun _ => Failure.noConfusion) s
  · exact update_reports _ _ _ s

end Action

namespace Sentence

/-- A sentence that is no conditional reports the first variable that it misses, if the end of a loop
reports none. -/
theorem act_reports (world : World) {finish : Action Unit} {sentence : Sentence} {s : State}
    (hf : Reports [] finish s) (hc : ∀ c yes no, sentence.command ≠ .conditional c yes no) :
    Reports sentence.command.reads (sentence.act world finish) s := by
  obtain ⟨line, command⟩ := sentence
  cases command with
  | createNumber | createText | createTask | connectApi => exact (change_spares _ _).reports s
  | add amount target => exact update_reports target (· + amount) _ s
  | subtract amount target => exact update_reports target (· - amount) _ s
  | multiply target factor => exact update_reports target (· * factor) _ s
  | divide target divisor => exact divide_reports target divisor s
  | completeTask name =>
      refine (look_spares fun t => ?_).reports s
      cases Task.setStatus? t.tasks name Task.completeStatus with
      | some tasks => exact change_spares _ _
      | none => exact throw_spares fun _ => Failure.noConfusion
  | showTasks | showTasksWith =>
      refine (look_spares fun t => ?_).reports s
      dsimp only
      split
      · exact modify_spares _
      · exact (modify_spares _).bind fun _ => modify_spares _
  | comment => exact (pure_spares ()).reports s
  | conditional c yes no => exact absurd rfl (hc c yes no)
  | repeatLoop | whileLoop => exact (openLoop_spares _ _).reports s
  | endLoop => exact hf
  | search query key =>
      exact ((demand_spares _ _).bind fun _ =>
        (ask_spares _).bind fun _ => change_spares _ _).reports s
  | getResponse => exact ((demand_spares _ _).bind fun _ => modify_spares _).reports s
  | connectServer url protocol => exact ((ask_spares _).bind fun _ => change_spares _ _).reports s
  | disconnectServer url =>
      exact ((demand_spares _ _).bind fun _ =>
        (ask_spares _).bind fun _ => change_spares _ _).reports s
  | sendMessage model system message => exact sendMessage_reports world model system message s
  | awaitReply =>
      exact ((demand_spares _ _).bind fun _ =>
        (ask_spares _).bind fun _ => change_spares _ _).reports s
  | storeReply target => exact ((demand_spares _ _).bind fun _ => change_spares _ _).reports s
  | measureLength source target =>
      exact (lookup_reads source).reports_bind fun _ => (change_spares _ _).reports s
  | showVariable name =>
      exact (lookup_reads name).reports_bind fun _ => (modify_spares _).reports s
  | showText text => exact (modify_spares _).reports s
  | showResponse =>
      exact ((demand_spares _ _).bind fun _ => change_spares _ _).reports s
  | unknown => exact Spares.reports (throw_spares fun _ => Failure.noConfusion) s

variable {s : State} {line : String} {x : Sentence}

/-- Only the last sentence on the way of a line misses a variable. -/
theorem Visits.stopsAt_of_missing {name : String} (h : Visits s line x)
    (hm : s.missing? x.command.reads = some name) : StopsAt s line x := by
  refine ⟨h, ?_⟩
  cases hc : x.command with
  | conditional c yes no =>
      rw [hc] at hm
      cases hv : c.verdict? s with
      | none => rw [Command.chosen?, hv, Option.bind_none]
      | some holds => cases hm.symm.trans ((test_reads c).missing_of_ok (test_of_verdict hv))
  | _ => rfl

theorem StopsAt.reports (world : World) (h : StopsAt s line x) (hl : s.loop.isCollecting = false) :
    Reports x.command.reads (State.execute world line) s := by
  intro name
  rcases h.cases with hc | ⟨c, yes, hc, hv⟩ | ⟨c, yes, no, hc, hv⟩
  · have hend : Reports [] (Replay.close world) s := by
      intro name
      rw [Replay.close_idle world hl]
      exact iff_of_false (by simp [Outcome.failure]) (Option.some_ne_none name).symm
    rw [State.execute, h.1.execute_leaf hc]
    exact act_reports world hend hc name
  · have hm : s.missing? c.reads = none := (test_reads c).missing_of_ok (test_of_verdict hv)
    rw [State.execute, h.1.execute_idle hc hv, hc, Command.reads, hm]
    exact iff_of_false (Option.some_ne_none _).symm (Option.some_ne_none _).symm
  · obtain ⟨e, he⟩ := test_of_no_verdict hv
    obtain ⟨first, hm, rfl⟩ := (test_reads c).missing_of_error he
    rw [State.execute, h.1.execute_stuck hc he, hc, Command.reads, hm]
    simp [Outcome.failure]

end Sentence

/-- The decimal that is written. -/
def Literal.decimal (x : Literal) : Decimal :=
  ⟨x.negative, Decimal.valueOf (x.whole ++ x.fraction), -x.fraction.length⟩

theorem Action.divide_eq_error_iff {target : String} {divisor : Float} {s : State} :
    divide target divisor s = .error .divisionByZero s ↔ (divisor == 0) = true := by
  unfold divide
  split
  · next hz => exact iff_of_true rfl hz
  · next hz =>
      refine iff_of_false (fun h => ?_) hz
      cases hl : s.bindings.get? target with
      | none => cases (bind_error (lookup_none hl)).symm.trans h
      | some value => cases (bind_ok (lookup_some hl)).symm.trans h

theorem Sentence.act_stores (world : World) (finish : Action Unit) {x : Sentence} {s : State}
    {name : String} {value : Value} (h : x.command.stores? s = some (name, value)) :
    ∃ said, x.act world finish s = .ok () ((s.assign name value).say said) := by
  obtain ⟨line, command⟩ := x
  cases command with
  | createNumber | createText =>
      cases h
      exact ⟨_, rfl⟩
  | measureLength source target =>
      obtain ⟨found, hf, hv⟩ := Option.map_eq_some_iff.1 h
      cases hv
      exact ⟨_, bind_ok (lookup_some hf)⟩
  | storeReply target =>
      obtain ⟨reply, hr, hv⟩ := Option.map_eq_some_iff.1 h
      cases hv
      have hd : demand .reply (·.reply) s = .ok reply s := by
        simp only [demand, get_bind, hr]
        rfl
      exact ⟨_, bind_ok hd⟩
  | _ => cases h

/-- Where no loop is collected, a line reports a variable as missing exactly if a sentence on its way
misses that variable before all others that it looks up, and no two sentences on the way miss any. A
division is refused if its divisor is written as at most half of the least positive number, with
either sign, and it is not looked whether its target is there. A variable that is created, measured
into or stored into is there afterwards, whether or not it was before. -/
theorem missing_variables_reported :
    (∀ (world : World) (line : String) (s : State) (name : String), s.loop.isCollecting = false →
      (Outcome.failure (s.execute world line) = some (.undefinedVariable name) ↔
        ∃ x, Sentence.Visits s line x ∧ s.missing? x.command.reads = some name)) ∧
    (∀ (line : String) (s : State) (x y : Sentence),
      Sentence.Visits s line x → (s.missing? x.command.reads).isSome = true →
      Sentence.Visits s line y → (s.missing? y.command.reads).isSome = true → x = y) ∧
    (∀ (world : World) (line : String) (s : State) (x : Sentence) (target : String)
        (divisor : Float), Sentence.Visits s line x → x.command = .divide target divisor →
      (s.execute world line = .error .divisionByZero s ↔ (divisor == 0) = true)) ∧
    (∀ (world : World) (line : String) (s : State) (x : Sentence) (target : Identifier)
        (divisor : Literal), Sentence.Visits s line x →
      Shape.divide.Spells [.name target, .number divisor] x.line.toList →
      (s.execute world line = .error .divisionByZero s ↔
        divisor.decimal.magnitude ≤ 2 ^ (-1075 : ℤ))) ∧
    ∀ (world : World) (line : String) (s : State) (x : Sentence) (name : String) (value : Value),
      Sentence.Visits s line x → x.command.stores? s = some (name, value) →
      ∃ said, s.execute world line = .ok () ((s.assign name value).say said) := by
  have hdivide {world : World} {line : String} {s : State} {x : Sentence} {target : String}
      {divisor : Float} (hx : Sentence.Visits s line x) (hc : x.command = .divide target divisor) :
      s.execute world line = .error .divisionByZero s ↔ (divisor == 0) = true := by
    have hact : x.act world (Replay.close world) = divide target divisor := by
      simp only [Sentence.act, hc]
    rw [State.execute, hx.execute_leaf (by simp [hc]), hact, divide_eq_error_iff]
  refine ⟨fun world line s name hl => ⟨fun h => ?_, ?_⟩, fun line s x y hx hmx hy hmy => ?_,
    fun world line s x target divisor => hdivide, fun world line s x target divisor hx h => ?_,
    fun world line s x name value hx h => ?_⟩
  · obtain ⟨x, hx⟩ := Sentence.exists_stopsAt s line
    exact ⟨x, hx.1, (hx.reports world hl name).1 h⟩
  · rintro ⟨x, hx, hm⟩
    exact ((hx.stopsAt_of_missing hm).reports world hl name).2 hm
  · obtain ⟨first, hmx⟩ := Option.isSome_iff_exists.1 hmx
    obtain ⟨first', hmy⟩ := Option.isSome_iff_exists.1 hmy
    exact (hx.stopsAt_of_missing hmx).unique (hy.stopsAt_of_missing hmy)
  · have hc := Sentence.classify_of_spells h rfl (by decide)
    rw [hx.classify_line] at hc
    rw [hdivide hx hc]
    exact Decimal.toFloat_beq_zero_iff divisor.decimal
  · have hleaf : ∀ c yes no, x.command ≠ .conditional c yes no := by
      intro c yes no hc
      rw [hc] at h
      cases h
    rw [State.execute, hx.execute_leaf hleaf]
    exact Sentence.act_stores world (Replay.close world) h

/-- A number that is not zero as written, with its only other digit far behind the point. -/
def tinyLiteral (places : Nat) : Literal where
  negative := true
  whole := ['0']
  fraction := Decimal.zeros places ++ ['1']
  whole_ne_nil := List.cons_ne_nil _ _
  digits c hc := by
    rw [List.mem_append, List.mem_append, List.mem_singleton, List.mem_singleton] at hc
    rcases hc with rfl | hc | rfl
    · rfl
    · rw [List.eq_of_mem_replicate hc]
      rfl
    · rfl

theorem tinyLiteral_magnitude_le {places : Nat} (h : 400 ≤ places) :
    (tinyLiteral places).decimal.magnitude ≤ 2 ^ (-1075 : ℤ) := by
  have hvalue : Decimal.valueOf (['0'] ++ (Decimal.zeros places ++ ['1'])) = 1 := by
    have hone : Decimal.valueOf ['1'] = 1 := rfl
    have hzero : Decimal.valueOf ['0'] = 0 := rfl
    simp only [Decimal.valueOf_append, Decimal.valueOf_zeros, hone, hzero, Nat.zero_mul,
      Nat.zero_add]
  have hlength : (Decimal.zeros places ++ ['1']).length = places + 1 := by simp [Decimal.zeros]
  have hdecimal : (tinyLiteral places).decimal = ⟨true, 1, -(places + 1 : Nat)⟩ := by
    simp only [Literal.decimal, tinyLiteral, hvalue, hlength]
  rw [hdecimal, Decimal.magnitude_mk]
  refine (Decimal.mul_ten_zpow_le (by omega)).trans ?_
  have hlog : Nat.log2 1 = 0 := by decide
  exact (zpow_le_zpow_iff_right₀ one_lt_two).2 (by rw [hlog]; omega)

/-- The operand of a conditional in the clause of another is missing, and what its own clause would
show is not looked up. A number too small for all but zero divides nothing, and a measure may be put
where nothing was. -/
theorem missing_variables_reported_below_least :
    let world : World := ⟨{}, Canned.services .epoch⟩
    let s : State := { bindings := [("a", .text "v")] }
    Outcome.failure (s.execute world "if a is equal to a, if a is less than b, show c") =
        some (.undefinedVariable "b") ∧
      s.execute world (String.ofList ("divide b by ".toList ++ (tinyLiteral 400).chars)) =
        .error .divisionByZero s ∧
      ∃ said, s.execute world "measure length of a and store in b" =
        .ok () ((s.assign "b" (.number (Decimal.toFloat ⟨false, 1, 0⟩))).say said) := by
  intro world s
  obtain ⟨hreported, -, -, hdivision, hstored⟩ := missing_variables_reported
  refine ⟨?_, ?_, ?_⟩
  · have hc : (Sentence.classify "if a is equal to a, if a is less than b, show c").command =
        .conditional ⟨"a", .equalTo, .named "a"⟩ "if a is less than b, show c" none := by rfl
    have hc' : (Sentence.classify "if a is less than b, show c").command =
        .conditional ⟨"a", .below, .named "b"⟩ "show c" none := by rfl
    refine (hreported world _ s "b" rfl).2 ⟨_, .next (by rw [hc]; rfl) (.here _), ?_⟩
    rw [hc']
    rfl
  · let target : Identifier := ⟨'b', [], .inl rfl, List.forall_mem_nil _⟩
    have hs : Shape.divide.Spells [.name target, .number (tinyLiteral 400)]
        ("divide b by ".toList ++ (tinyLiteral 400).chars) := by
      rw [← List.append_nil (tinyLiteral 400).chars]
      exact ⟨_, List.mem_singleton.2 rfl, .words "divide " "divide ".toList (by decide) rfl <|
        .slot (.name target) <| .words " by " " by ".toList (by decide) rfl <|
        .slot (.number (tinyLiteral 400)) .nil⟩
    refine (hdivision world _ s _ target (tinyLiteral 400) (.here _) ?_).2
      (tinyLiteral_magnitude_le le_rfl)
    rwa [Sentence.classify, Text.trim, String.toList_ofList, String.toList_ofList,
      Shape.strip_of_spells hs]
  · have hc : (Sentence.classify "measure length of a and store in b").command =
        .measureLength "a" "b" := by rfl
    refine hstored world _ s _ "b" _ (.here _) ?_
    rw [hc]
    rfl

end SentenceScript
