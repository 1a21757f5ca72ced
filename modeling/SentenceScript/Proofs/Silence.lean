import SentenceScript.Proofs.Frame

namespace SentenceScript

open SentenceScript.Action

namespace State

variable {s t u : State}

/-- Nothing has changed, or at least one line has been written behind the log. -/
def Told (s t : State) : Prop := t = s ∨ ∃ first rest, t.log = s.log ++ first :: rest

theorem Told.trans (h : s.Told t) (h' : t.Told u) : s.Told u := by
  rcases h with rfl | ⟨first, rest, ht⟩
  · exact h'
  · rcases h' with rfl | ⟨first', rest', hu⟩
    · exact .inr ⟨first, rest, ht⟩
    · refine .inr ⟨first, rest ++ first' :: rest', ?_⟩
      rw [hu, ht, List.append_assoc, List.cons_append]

/-- The end of a loop is told, whatever the passes changed. -/
theorem Told.finishLoop {loop : Loop} (h : { s with loop }.Told t) :
    s.Told ({ t with loop := .closed }.say "Loop finished!") := by
  rcases h with rfl | ⟨first, rest, ht⟩
  · exact .inr ⟨"Loop finished!", [], rfl⟩
  · refine .inr ⟨first, rest ++ ["Loop finished!"], ?_⟩
    change t.log ++ ["Loop finished!"] = _
    rw [ht, List.append_assoc, List.cons_append]

theorem Told.of_leaves {x : Action Unit} {P : State → Prop} (h : Leaves x s P)
    (hP : ∀ t, P t → t.log = s.log) (hx : x s = .ok () t) : s.Told t := by
  rcases h with ⟨e, he⟩ | ⟨u, lines, hu, hempty, hok⟩
  · cases he.symm.trans hx
  · cases hok.symm.trans hx
    cases lines with
    | nil => exact .inl (by rw [hempty rfl, State.sayAll, List.append_nil])
    | cons first rest => exact .inr ⟨first, rest, by rw [State.sayAll, hP u hu]⟩

theorem told_stepwise (world : World) :
    Outcome.Stepwise world fun s o => ∀ t, o = .ok () t → s.Told t where
  act h finish s t ht :=
    .of_leaves (Sentence.act_leaves world finish h s) (fun _ hm => hm.changed.log) ht
  refl s t ht := by
    cases ht
    exact .inl rfl
  say s line t ht := by
    cases ht
    exact .inr ⟨line, [], rfl⟩
  refuse h t ht := by cases ht
  overrun s t ht := by cases ht
  start hl kind line t ht := by
    cases ht
    exact .inr ⟨line, [], rfl⟩
  finish {s kind lines o} hl h t ht := by
    cases o with
    | ok _ u =>
        cases ht
        exact (h u rfl).finishLoop
    | error e u => cases ht
  trans {s t o} h h' u hu := (h t rfl).trans (h' u hu)

end State

/-- A line that succeeds changes nothing or writes at least one line, whether it is executed at once
or in a pass of a loop, and whatever loop there is. The end of a loop is such a line, with all that
its passes change. -/
theorem no_silent_change {world : World} {line : String} {s t : State}
    (h : s.execute world line = .ok () t ∨ Replay.line world line s = .ok () t) :
    (t.log = s.log → t = s) ∧ (t ≠ s → ∃ first rest, t.log = s.log ++ first :: rest) := by
  have hstep := State.told_stepwise world
  have htold : s.Told t := by
    rcases h with h | h
    · exact hstep.execute line s t h
    · exact hstep.line (fun s => hstep.refuse (s := s) (e := .noActiveLoop) trivial) line s t h
  rcases htold with rfl | ⟨first, rest, hlog⟩
  · exact ⟨fun _ => rfl, fun hne => absurd rfl hne⟩
  · refine ⟨fun he => ?_, fun _ => ⟨first, rest, hlog⟩⟩
    rw [he] at hlog
    exact absurd (List.self_eq_append_right.1 hlog) (List.cons_ne_nil _ _)

/-- A loop of one pass whose only line is a remark. -/
def remarkLoop : State := { loop := .collecting (.times 1) ["note: nothing"] }

theorem remark_line (world : World) (s : State) :
    Replay.line world "note: nothing" s = .ok () s := by
  have hc : (Sentence.classify "note: nothing").command = .comment "nothing" := by rfl
  rw [Replay.line, Sentence.execute_leaf _ _ (by simp [hc])]
  simp only [Sentence.act, hc]
  rfl

/-- The remark is passed over in silence, and the end of its loop is not. -/
theorem no_silent_change_remark_loop :
    let world : World := ⟨{}, Canned.services .epoch⟩
    ∃ t, remarkLoop.execute world "end" = .ok () t ∧ t ≠ remarkLoop ∧
      (∃ first rest, t.log = remarkLoop.log ++ first :: rest) ∧
      ∀ u, Replay.line world "note: nothing" remarkLoop = .ok () u → u = remarkLoop := by
  intro world
  let s : State := { remarkLoop with loop := .replaying (.times 1) }
  have hbody : Replay.body world ["note: nothing"] (s.say "  Iteration 1:") =
      .ok () (s.say "  Iteration 1:") :=
    bind_ok (remark_line world _)
  have hpasses : Replay.passes world ["note: nothing"] (.times 1) s =
      .ok () (s.say "  Iteration 1:") := by
    have hsay : say "  Iteration 1:" s = .ok () (s.say "  Iteration 1:") := rfl
    exact (bind_ok hsay).trans (bind_ok hbody)
  have hend : remarkLoop.execute world "end" = .ok () (State.say
      { remarkLoop with log := ["  Iteration 1:"], loop := .closed } "Loop finished!") := by
    have hc : (Sentence.classify "end").command = .endLoop := by rfl
    rw [State.execute, Sentence.execute_leaf _ _ (by simp [hc])]
    simp only [Sentence.act, hc]
    rw [Replay.close_eq rfl, hpasses]
    rfl
  have hne : State.say { remarkLoop with log := ["  Iteration 1:"], loop := .closed }
      "Loop finished!" ≠ remarkLoop := by
    intro he
    cases congrArg State.loop he
  refine ⟨_, hend, hne, (no_silent_change (.inl hend)).2 hne, fun u hu => ?_⟩
  refine (no_silent_change (.inr hu)).1 ?_
  cases (remark_line world remarkLoop).symm.trans hu
  rfl

end SentenceScript
