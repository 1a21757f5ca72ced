import SentenceScript.Proofs.WrittenSentences

namespace SentenceScript

open SentenceScript.Action Text

namespace Sentence

/-- A line from which no command that opens or ends a loop can be reached. -/
inductive LoopFree : String → Prop
  | leaf (line) (hc : ∀ c yes no, (classify line).command ≠ .conditional c yes no)
      (h : ¬ (classify line).command.HandlesLoop) : LoopFree line
  | conditional (line) (c) (yes) (no) (h : (classify line).command = .conditional c yes no)
      (hy : LoopFree yes) (hn : ∀ clause ∈ no, LoopFree clause) : LoopFree line

theorem LoopFree.trim {line : String} (h : LoopFree line) : LoopFree (trim line) := by
  cases h with
  | leaf _ hc h => exact .leaf _ (by rwa [classify_trim]) (by rwa [classify_trim])
  | conditional _ c yes no h hy hn => exact .conditional _ c yes no (by rwa [classify_trim]) hy hn

theorem LoopFree.endsLoop {line : String} (h : LoopFree line) :
    endsLoop (Text.trim line) = false := by
  cases he : SentenceScript.endsLoop (Text.trim line) with
  | false => rfl
  | true =>
      have hend := classify_endsLoop he
      cases h with
      | leaf _ hc h => exact absurd (.inr hend) h
      | conditional _ c yes no h hy hn => cases h.symm.trans hend

theorem LoopFree.plain {line : String} (h : LoopFree line) (world : World)
    (finish : Action Unit) : Plain (execute world finish line) := by
  induction h with
  | leaf line hc h => rw [execute_leaf _ _ hc]; exact act_plain world finish h
  | conditional line c yes no h hy hn ihy ihn =>
      rw [execute_conditional _ _ h]
      refine (test_reading c).bind_plain fun holds => ?_
      cases holds with
      | true => exact ihy
      | false =>
          cases no with
          | none => exact (pure_reading ()).plain
          | some clause => exact ihn clause rfl

theorem LoopFree.replay_plain {line : String} (h : LoopFree line) (world : World) :
    Plain (Replay.line world line) := h.plain world _

end Sentence

open Sentence

/-- The lines that a loop collects: each without its outer blanks, blank lines left out. -/
def collected (lines : List String) : List String := (lines.map trim).filter (!·.isEmpty)

namespace State

/-- Lines free of loops do the same, fed one by one, as the body that they would be collected to. -/
theorem feedAll_eq_body (world : World) {lines : List String} (free : ∀ l ∈ lines, LoopFree l)
    {s : State} (h : s.loop.isCollecting = false) :
    feedAll world lines s = Replay.body world (collected lines) s := by
  induction lines generalizing s with
  | nil => rw [feedAll_nil]; rfl
  | cons line rest ih =>
      have hrest : ∀ l ∈ rest, LoopFree l := fun l hl => free l (by simp [hl])
      cases hb : (trim line).isEmpty with
      | true =>
          have hc : collected (line :: rest) = collected rest := by simp [collected, hb]
          rw [feedAll_cons_ok (feed_blank hb), hc]
          exact ih hrest h
      | false =>
          have hc : collected (line :: rest) = trim line :: collected rest := by
            simp [collected, hb]
          have hf : feed world line s = Replay.line world (trim line) s := by
            rw [feed_idle hb h, Replay.line_eq_execute world _ h]
          rw [hc, Replay.body, forM_cons]
          rcases (free line (by simp)).trim.replay_plain world s with
            ⟨_, t, -, ht⟩ | ⟨e, -, he⟩
          · have hl : Replay.line world (trim line) s = .ok () (t.within s.loop []) := ht s.loop []
            rw [feedAll_cons_ok (hf.trans hl), bind_ok hl]
            exact ih hrest h
          · have hl : Replay.line world (trim line) s = .error e s := he s.loop []
            rw [feedAll_cons_error (hf.trans hl), bind_error hl]

theorem feedAll_collected (world : World) {lines : List String}
    (h : ∀ l ∈ lines, endsLoop (trim l) = false) {s : State} {kind : LoopKind} {body : List String}
    (hl : s.loop = .collecting kind body) :
    feedAll world lines s =
      .ok () { s with loop := .collecting kind (body ++ collected lines) } := by
  induction lines generalizing s body with
  | nil => simp [collected, ← hl]; rfl
  | cons line rest ih =>
      have hrest : ∀ l ∈ rest, endsLoop (trim l) = false := fun l hl => h l (by simp [hl])
      cases hb : (trim line).isEmpty with
      | true =>
          have hc : collected (line :: rest) = collected rest := by simp [collected, hb]
          rw [feedAll_cons_ok (feed_blank hb), hc]
          exact ih hrest hl
      | false =>
          have hc : collected (line :: rest) = trim line :: collected rest := by
            simp [collected, hb]
          have ha : body ++ trim line :: collected rest =
              body ++ [trim line] ++ collected rest := by simp
          rw [feedAll_cons_ok (feed_kept hb hl (h line (by simp))), hc, ha]
          exact ih (s := { s with loop := .collecting kind (body ++ [trim line]) }) hrest rfl

/-- A pass outside a loop, and the same pass in any loop after any log: they end alike and write the
same lines. -/
theorem pass_framed (world : World) {lines : List String} (free : ∀ l ∈ lines, LoopFree l)
    {s : State} (h : s.loop.isCollecting = false) :
    ∃ o : Outcome, feedAll world lines s = o.within s.loop s.log ∧
      ∀ loop log, Replay.body world (collected lines) { s with loop, log } = o.within loop log := by
  have hfree : ∀ l ∈ collected lines, LoopFree l := by
    intro l hl
    obtain ⟨l', hl', rfl⟩ := List.mem_map.1 (List.mem_filter.1 hl).1
    exact (free l' hl').trim
  obtain ⟨o, ho⟩ := forM_framed (f := Replay.line world)
    (fun l hl => ((hfree l hl).replay_plain world).framed) { s with log := [] }
  have hw (loop : Loop) (log : List String) :
      Replay.body world (collected lines) { s with loop, log } = o.within loop log := by
    have := ho loop log
    rwa [within, List.append_nil] at this
  exact ⟨o, (feedAll_eq_body world free h).trans (hw s.loop s.log), hw⟩

end State

/-- The lines that each pass begun adds to the log, when the passes are fed one after another. -/
def passLogs (world : World) (lines : List String) : Nat → State → List (List String)
  | 0, _ => []
  | n + 1, s =>
      match s.feedAll world lines with
      | .ok _ t => t.log.drop s.log.length :: passLogs world lines n t
      | .error _ t => [t.log.drop s.log.length]

def numbered (i : Nat) : List (List String) → List String
  | [] => []
  | lines :: rest => ("  Iteration " ++ toString i ++ ":") :: lines ++ numbered (i + 1) rest

/-- A counted loop from its pass `i` on, beside the same passes fed one after another. -/
theorem counted_eq_unrolled (world : World) {lines : List String} (free : ∀ l ∈ lines, LoopFree l)
    (n i : Nat) {s : State} (h : s.loop = .closed) :
    ∃ o : Outcome, s.feedAll world (List.replicate n lines).flatten =
        o.within .closed (s.log ++ (passLogs world lines n s).flatten) ∧ o.state.log = [] ∧
      ∀ loop log, Replay.counted world (collected lines) n i { s with loop, log } =
        o.within loop (log ++ numbered i (passLogs world lines n s)) := by
  induction n generalizing i s with
  | zero =>
      refine ⟨.ok () { s with log := [] }, ?_, rfl, fun loop log => ?_⟩
      · simp [passLogs, Outcome.within, State.within, ← h]; rfl
      · simp [passLogs, numbered, Outcome.within, State.within]; rfl
  | succ n ih =>
      obtain ⟨p, hp, hq⟩ := State.pass_framed world free (s := s) (by rw [h]; rfl)
      -- The pass before the others: `p` is what it does, with the lines that it writes as its log.
      have hbody (loop : Loop) (log : List String) :
          Replay.counted world (collected lines) (n + 1) i { s with loop, log } =
            (Replay.body world (collected lines) >>= fun _ =>
              Replay.counted world (collected lines) n (i + 1))
              { s with loop, log := log ++ ["  Iteration " ++ toString i ++ ":"] } := rfl
      rw [h] at hp
      cases p with
      | ok _ t =>
          have hu : s.feedAll world lines = .ok () (t.within .closed s.log) := hp
          have hl : passLogs world lines (n + 1) s =
              t.log :: passLogs world lines n (t.within .closed s.log) := by
            simp [passLogs, hu]
          obtain ⟨o, ho, hlog, hc⟩ := ih (i + 1) (s := t.within .closed s.log) rfl
          refine ⟨o, ?_, hlog, fun loop log => ?_⟩
          · rw [List.replicate_succ, List.flatten_cons, State.feedAll_append_ok hu, ho, hl]
            simp
          · rw [hbody, bind_ok (hq loop _), hl]
            refine (hc loop (log ++ ["  Iteration " ++ toString i ++ ":"] ++ t.log)).trans ?_
            simp [numbered]
      | error e t =>
          have hu : s.feedAll world lines = .error e (t.within .closed s.log) := hp
          have hl : passLogs world lines (n + 1) s = [t.log] := by simp [passLogs, hu]
          refine ⟨.error e { t with log := [] }, ?_, rfl, fun loop log => ?_⟩
          · rw [List.replicate_succ, List.flatten_cons, State.feedAll_append_error hu, hl]
            simp [Outcome.within, State.within]
          · rw [hbody, bind_error (hq loop _), hl]
            simp [Outcome.within, State.within, numbered]

namespace Sentence

def repeatHeader (n : UInt64) : String := "repeat " ++ toString n.toNat ++ " times"

theorem toList_repeatHeader (n : UInt64) : (repeatHeader n).toList =
    "repeat ".toList ++ (Decimal.digitChars n.toNat ++ " times".toList) := by
  simp only [repeatHeader, String.toList_append, List.append_assoc]
  rw [show toString n.toNat = n.toNat.repr from rfl, Nat.toList_repr]
  rfl

def countOf (n : UInt64) : Count where
  digits := Decimal.digitChars n.toNat
  ne_nil := Decimal.digitChars_ne_nil _
  valid := Decimal.isDigit_digitChars _
  below := by rw [Decimal.valueOf_digitChars]; exact n.toNat_lt_size

theorem countOf_value (n : UInt64) : (countOf n).value = n := by
  rw [← UInt64.toNat_inj, Count.value, UInt64.toNat_ofNatLT]
  exact Decimal.valueOf_digitChars _

theorem spells_repeatHeader (n : UInt64) :
    Shape.repeatLoop.Spells [.count (countOf n)] (repeatHeader n).toList := by
  rw [toList_repeatHeader]
  exact ⟨_, List.mem_singleton_self _, .words "repeat " "repeat ".toList (by decide) rfl <|
    .slot (.count (countOf n)) <| .words " times" " times".toList (by decide) rfl .nil⟩

theorem trim_repeatHeader (n : UInt64) : trim (repeatHeader n) = repeatHeader n := by
  rw [trim, Shape.strip_of_spells (spells_repeatHeader n), String.ofList_toList]

theorem classify_repeatHeader (n : UInt64) :
    (classify (repeatHeader n)).command = .repeatLoop n := by
  have h := classify_of_spells (spells_repeatHeader n) rfl (by decide)
  rwa [countOf_value] at h

end Sentence

theorem State.feed_repeat (world : World) (n : UInt64) {s : State} (h : s.loop = .closed) :
    s.feed world (repeatHeader n) = .ok ()
      ({ s with loop := .collecting (.times n) [] }.say
        ("Starting to repeat " ++ toString n.toNat ++ " times...")) := by
  have hb : (trim (repeatHeader n)).isEmpty = false := by
    rw [trim_repeatHeader, ← Bool.not_eq_true, String.isEmpty_iff, ← String.toList_inj,
      toList_repeatHeader]
    simp
  have hc := classify_repeatHeader n
  rw [feed_idle hb (by rw [h]; rfl), trim_repeatHeader, execute, execute_leaf _ _ (by simp [hc])]
  simp only [act, hc, openRepeat, openLoop, get_bind, h, Loop.kind?]
  rfl

/-- A counted loop does what its body does when it is fed that many times: it fails alike, ends in the
same state but for the log, and its log has the lines of each pass begun behind their number. -/
theorem repeat_eq_unrolled (world : World) (n : UInt64) (lines : List String)
    (free : ∀ line ∈ lines, LoopFree line) (s : State) (closed : s.loop = .closed) :
    let unrolled : Outcome := s.feedAll world (List.replicate n.toNat lines).flatten
    let looped : Outcome := s.feedAll world (repeatHeader n :: lines ++ ["end"])
    let logs := passLogs world lines n.toNat s
    looped.failure = unrolled.failure ∧ unrolled.state.loop = .closed ∧
      unrolled.state.log = s.log ++ logs.flatten ∧
      looped.state =
        { unrolled.state with
          log := s.log ++ ("Starting to repeat " ++ toString n.toNat ++ " times...") ::
            numbered 1 logs ++ if unrolled.failure.isNone then ["Loop finished!"] else [] } := by
  intro unrolled looped logs
  obtain ⟨o, ho, hlog, hc⟩ := counted_eq_unrolled world free n.toNat 1 closed
  have hends : ∀ l ∈ lines, endsLoop (trim l) = false := fun l hl => (free l hl).endsLoop
  let start := "Starting to repeat " ++ toString n.toNat ++ " times..."
  let opened : State := { s with loop := .collecting (.times n) [] }.say start
  let kept : State := { opened with loop := .collecting (.times n) (collected lines) }
  have hkept : opened.feedAll world lines = .ok () kept :=
    State.feedAll_collected world hends (s := opened) rfl
  have hlooped : looped = kept.feed world "end" := by
    have hopened := State.feed_repeat world n closed
    exact (State.feedAll_cons_ok hopened).trans
      ((State.feedAll_append_ok hkept).trans State.feedAll_singleton)
  have hunrolled : unrolled = o.within .closed (s.log ++ logs.flatten) := ho
  have hpasses : Replay.passes world (collected lines) (.times n)
      { kept with loop := .replaying (.times n) } =
        o.within (.replaying (.times n)) (s.log ++ [start] ++ numbered 1 logs) :=
    hc (.replaying (.times n)) (s.log ++ [start])
  rw [hlooped, hunrolled, State.feed_end (s := kept) rfl (by decide), Replay.close_eq rfl, hpasses]
  cases o with
  | ok _ t =>
      have ht : t.log = [] := hlog
      simp [Outcome.within, Outcome.finishLoop, Outcome.state, Outcome.failure, State.within,
        State.say, ht, start, logs]
  | error e t =>
      have ht : t.log = [] := hlog
      simp [Outcome.within, Outcome.finishLoop, Outcome.state, Outcome.failure, State.within, ht,
        start, logs]

theorem repeat_eq_unrolled_twice :
    (∀ line ∈ ["show \"a\"", "  "], LoopFree line) ∧
      (Outcome.state (State.feedAll ⟨{}, Canned.services .epoch⟩
        (repeatHeader 2 :: ["show \"a\"", "  "] ++ ["end"]) {})).log =
        ["Starting to repeat 2 times...", "  Iteration 1:", "a", "  Iteration 2:", "a",
          "Loop finished!"] := by
  have hshow : (classify "show \"a\"").command = .showText "a" := by rfl
  have hblank : (classify "  ").command = .unknown := by rfl
  have hfree : ∀ line ∈ ["show \"a\"", "  "], LoopFree line := by
    intro line hl
    simp only [List.mem_cons, List.not_mem_nil, or_false] at hl
    rcases hl with rfl | rfl
    · exact .leaf _ (by simp [hshow]) (by simp [hshow, Command.HandlesLoop, Command.opens?])
    · exact .leaf _ (by simp [hblank]) (by simp [hblank, Command.HandlesLoop, Command.opens?])
  have hpass (world : World) {s : State} (h : s.loop = .closed) :
      s.feedAll world ["show \"a\"", "  "] = .ok () (s.say "a") := by
    have hs : s.feed world "show \"a\"" = .ok () (s.say "a") := by
      have hc : (classify (trim "show \"a\"")).command = .showText "a" := by
        rw [classify_trim, hshow]
      rw [State.feed_idle (by decide) (by rw [h]; rfl), State.execute,
        execute_leaf _ _ (by simp [hc])]
      simp only [act, hc]
      rfl
    rw [State.feedAll_cons_ok hs, State.feedAll_cons_ok (State.feed_blank (by decide)),
      State.feedAll_nil]
  obtain ⟨-, -, -, h⟩ :=
    repeat_eq_unrolled ⟨{}, Canned.services .epoch⟩ 2 ["show \"a\"", "  "] hfree {} rfl
  have h₁ (world : World) := hpass world (s := {}) rfl
  have h₂ (world : World) := hpass world (s := State.say {} "a") rfl
  have hlogs (world : World) :
      passLogs world ["show \"a\"", "  "] (2 : UInt64).toNat {} = [["a"], ["a"]] := by
    change passLogs world _ 2 _ = _
    simp only [passLogs, h₁, h₂]
    rfl
  have hunrolled (world : World) :
      State.feedAll world (List.replicate (2 : UInt64).toNat ["show \"a\"", "  "]).flatten {} =
        .ok () ((State.say {} "a").say "a") :=
    (State.feedAll_append_ok (h₁ world)).trans
      ((State.feedAll_append_ok (h₂ world)).trans State.feedAll_nil)
  refine ⟨hfree, (congrArg State.log h).trans ?_⟩
  rw [hlogs, hunrolled]
  rfl

end SentenceScript
