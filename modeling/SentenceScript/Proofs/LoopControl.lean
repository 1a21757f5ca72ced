import SentenceScript.Proofs.Lockstep
import SentenceScript.Proofs.Path

namespace SentenceScript

open SentenceScript.Action

/-- A loop that is replayed goes on being replayed, however a script ends in it. -/
def Outcome.Replays (s : State) (o : Outcome) : Prop :=
  ∀ kind, s.loop = .replaying kind → o.state.loop = .replaying kind

namespace Outcome.Replays

variable {s t : State} {o : Outcome}

theorem of_loop_eq (h : o.state.loop = s.loop) : Replays s o := fun _ hs => h.trans hs

theorem of_not_replaying (h : ∀ kind, s.loop ≠ .replaying kind) : Replays s o :=
  fun kind hs => absurd hs (h kind)

theorem trans (h : Replays s (.ok () t)) (h' : Replays t o) : Replays s o :=
  fun kind hs => h' kind (h kind hs)

/-- What does not see the loop does not change it. -/
theorem of_plain {x : Action Unit} (h : Plain x) (s : State) : Replays s (x s) := by
  apply of_loop_eq
  rcases h s with ⟨_, t, -, ht⟩ | ⟨e, -, he⟩
  · have hx : x s = .ok _ (t.within s.loop []) := ht s.loop []
    rw [hx]
    rfl
  · have hx : x s = .error e s := he s.loop []
    rw [hx]
    rfl

theorem stepwise (world : World) : Stepwise world Replays where
  act h finish s := of_plain (Sentence.act_plain world finish h) s
  refl _ := of_loop_eq rfl
  say _ _ := of_loop_eq rfl
  refuse _ := of_loop_eq rfl
  overrun _ := of_loop_eq rfl
  start h _ _ := of_not_replaying fun kind hk => by cases h.symm.trans hk
  finish hl _ := of_not_replaying fun kind hk => by cases hl.symm.trans hk
  trans := trans

end Outcome.Replays

namespace Sentence

variable {s : State} {kind : LoopKind} {line : String} {x : Sentence}

theorem StopsAt.execute_header (world : World) (h : s.loop = .replaying kind)
    (hx : StopsAt s line x) (ho : x.command.opens?.isSome = true) :
    s.execute world line = .error (.loopAlreadyOpen kind.name) s := by
  obtain ⟨opened, ho⟩ := Option.isSome_iff_exists.1 ho
  have hc : ∀ c yes no, x.command ≠ .conditional c yes no := by
    intro c yes no hc
    rw [hc] at ho
    cases ho
  rw [State.execute, hx.1.execute_leaf hc]
  rcases act_header world (Replay.close world) ho s with ⟨_, hclosed, -⟩ | ⟨active, hk, he⟩
  · cases hclosed.symm.trans h
  · rw [h] at hk
    cases hk
    exact he

theorem StopsAt.execute_end (world : World) (h : s.loop = .replaying kind) (hx : StopsAt s line x)
    (he : x.command = .endLoop) : s.execute world line = .error .noActiveLoop s := by
  rw [State.execute, hx.1.execute_leaf (by simp [he])]
  simp only [act, he]
  exact Replay.close_idle world (by rw [h]; rfl)

end Sentence

/-- While a loop is replayed no line changes that, whether it fails or not, and so no body, no number
of passes over a body and no further script does. A line whose way ends at the header of a loop is
refused with the kind of the loop that is replayed, one whose way ends at the end of a loop as if there
were none, and either of them changes nothing. -/
theorem replay_closed_to_loop_control (world : World) {s : State} {kind : LoopKind}
    (h : s.loop = .replaying kind) :
    (∀ line : String, (Outcome.state (s.execute world line)).loop = .replaying kind ∧
      ∃ x, (∀ y, Sentence.StopsAt s line y ↔ y = x) ∧
        (x.command.opens?.isSome = true →
          s.execute world line = .error (.loopAlreadyOpen kind.name) s) ∧
        (x.command = .endLoop → s.execute world line = .error .noActiveLoop s)) ∧
    (∀ lines, (Outcome.state (Replay.body world lines s)).loop = .replaying kind) ∧
    (∀ lines left i, (Outcome.state (Replay.counted world lines left i s)).loop =
      .replaying kind) ∧
    (∀ guard lines left i, (Outcome.state (Replay.guarded world guard lines left i s)).loop =
      .replaying kind) ∧
    ∀ lines, (Outcome.state (s.feedAll world lines)).loop = .replaying kind := by
  have c := Outcome.Replays.stepwise world
  refine ⟨fun line => ⟨c.execute line s kind h, ?_⟩, fun lines => c.body lines s kind h,
    fun lines left i => c.counted lines left i s kind h,
    fun guard lines left i => c.guarded guard lines left i s kind h, fun lines => ?_⟩
  · obtain ⟨x, hx⟩ := Sentence.exists_stopsAt s line
    exact ⟨x, fun y => ⟨fun hy => hy.unique hx, fun hy => hy ▸ hx⟩, hx.execute_header world h,
      hx.execute_end world h⟩
  · refine c.feedAll (fun text hl => .of_not_replaying fun kind hk => ?_) lines s kind h
    cases hl.symm.trans hk

/-- The header of a loop stands behind two conditions, and the end of one behind `otherwise`. -/
theorem replay_closed_to_loop_control_nested :
    let world : World := ⟨{}, Canned.services .epoch⟩
    let kind : LoopKind := .guarded ⟨"n", .below, 3⟩
    let s : State := { bindings := [("a", .text "v"), ("b", .text "v")], loop := .replaying kind }
    s.execute world "if a is equal to b, if b is equal to a, repeat 2 times" =
        .error (.loopAlreadyOpen "while") s ∧
      s.execute world "if a is above b, show a otherwise end" = .error .noActiveLoop s := by
  intro world kind s
  obtain ⟨hline, -⟩ := replay_closed_to_loop_control world (rfl : s.loop = .replaying kind)
  constructor
  · obtain ⟨-, x, hx, hopen, -⟩ := hline "if a is equal to b, if b is equal to a, repeat 2 times"
    have hstop : Sentence.StopsAt s "if a is equal to b, if b is equal to a, repeat 2 times"
        (Sentence.classify "repeat 2 times") := ⟨.next rfl (.next rfl (.here _)), rfl⟩
    obtain rfl := (hx _).1 hstop
    exact hopen rfl
  · obtain ⟨-, x, hx, -, hend⟩ := hline "if a is above b, show a otherwise end"
    have hstop : Sentence.StopsAt s "if a is above b, show a otherwise end"
        (Sentence.classify "end") := ⟨.next rfl (.here _), rfl⟩
    obtain rfl := (hx _).1 hstop
    exact hend rfl

end SentenceScript
