import SentenceScript.Proofs.SessionSnapshot

namespace SentenceScript

namespace LoopView

variable {v : LoopView} {kind : LoopKind} {body : List String}

theorem kind?_eq_times_iff {n : UInt64} :
    v.kind? = some (.times n) ↔ v.repeatCount = some n ∧ v.loopType ≠ some "while" := by
  rw [kind?]
  cases v.repeatCount with
  | none => cases v.whileCondition <;> simp
  | some m =>
      by_cases ht : v.loopType = some "while"
      · cases v.whileCondition <;> simp [ht]
      · simp [ht]

theorem kind?_eq_guarded_iff {guard : Guard} :
    v.kind? = some (.guarded guard) ↔
      ¬ (v.repeatCount.isSome = true ∧ v.loopType ≠ some "while") ∧
        v.whileCondition = some guard := by
  rw [kind?]
  cases v.repeatCount with
  | none => cases v.whileCondition <;> simp
  | some m =>
      by_cases ht : v.loopType = some "while"
      · cases v.whileCondition <;> simp [ht]
      · simp [ht]

theorem toLoop_eq_collecting_iff :
    v.toLoop = .collecting kind body ↔
      v.inLoop = true ∧ v.kind? = some kind ∧ body = v.bufferedLines := by
  rw [toLoop]
  by_cases hi : v.inLoop = true
  · rw [if_pos hi]
    cases v.kind? with
    | none => simp
    | some k =>
        simp only [Option.elim_some, Loop.collecting.injEq, Option.some.injEq, hi, true_and]
        exact and_congr_right fun _ => eq_comm
  · simp [hi]

end LoopView

namespace Loop

theorem settled_iff {loop : Loop} : loop.Settled ↔ ∀ kind, loop ≠ .replaying kind := by
  cases loop <;> simp [Settled]

theorem Settled.eq_closed {loop : Loop} (h : loop.Settled)
    (hc : ∀ kind body, loop ≠ .collecting kind body) : loop = .closed := by
  rcases h with h | ⟨kind, body, h⟩
  · exact h
  · exact absurd h (hc kind body)

end Loop

namespace Snapshot

theorem restore_capture {s : State} (h : s.loop.Settled) : (capture s).restore = s := by
  have hloop : (capture s).loop.toLoop = s.loop := LoopView.toLoop_ofLoop h
  rw [restore, hloop]
  rfl

/-- The loop that is replaying is all that is not kept. -/
theorem restore_capture_replaying {s : State} {kind : LoopKind} (h : s.loop = .replaying kind) :
    (capture s).restore = { s with loop := .closed } := by
  have hloop : (capture s).loop.toLoop = .closed := by
    rw [capture, h]
    rfl
  rw [restore, hloop]
  rfl

theorem restore_settled (v : Snapshot) : v.restore.loop.Settled := v.loop.toLoop_settled

end Snapshot

/-- A state comes back from its snapshot as it was, but that a loop that was replaying is closed.
Whatever the fields of a snapshot are, its loop is open if and only if they say so and describe it:
by a count, unless the loop is called a while loop, or else by a guard. To save what was restored and
restore it once more changes nothing. -/
theorem snapshot_restored :
    (∀ s : State, (∀ kind, s.loop ≠ .replaying kind) → (Snapshot.capture s).restore = s) ∧
    (∀ (s : State) (kind : LoopKind), s.loop = .replaying kind →
      (Snapshot.capture s).restore = { s with loop := .closed }) ∧
    ∀ v : Snapshot,
      (∀ n body, v.restore.loop = .collecting (.times n) body ↔
        v.loop.inLoop = true ∧ (v.loop.repeatCount = some n ∧ v.loop.loopType ≠ some "while") ∧
          body = v.loop.bufferedLines) ∧
      (∀ guard body, v.restore.loop = .collecting (.guarded guard) body ↔
        v.loop.inLoop = true ∧
          (¬ (v.loop.repeatCount.isSome = true ∧ v.loop.loopType ≠ some "while") ∧
            v.loop.whileCondition = some guard) ∧
          body = v.loop.bufferedLines) ∧
      ((∀ kind body, v.restore.loop ≠ .collecting kind body) → v.restore.loop = .closed) ∧
      (Snapshot.capture v.restore).restore = v.restore := by
  refine ⟨fun s h => Snapshot.restore_capture (Loop.settled_iff.2 h),
    fun s kind h => Snapshot.restore_capture_replaying h, fun v => ⟨fun n body => ?_,
      fun guard body => ?_, v.restore_settled.eq_closed, Snapshot.restore_capture v.restore_settled⟩⟩
  · rw [← LoopView.kind?_eq_times_iff]
    exact LoopView.toLoop_eq_collecting_iff
  · rw [← LoopView.kind?_eq_guarded_iff]
    exact LoopView.toLoop_eq_collecting_iff

/-- A replay is not kept. A loop with a count and a guard is what it is called, and one called
`while` that has a count alone is closed. -/
theorem snapshot_restored_mixed :
    (Snapshot.capture { log := ["a"], loop := .replaying (.times 2) }).restore = { log := ["a"] } ∧
      (Snapshot.capture { log := ["a"], loop := .collecting (.times 2) ["b"] }).restore =
        { log := ["a"], loop := .collecting (.times 2) ["b"] } ∧
      (Snapshot.restore { loop := ⟨true, some "while", ["b"], some 2, some ⟨"x", .above, 1⟩⟩ }).loop =
        .collecting (.guarded ⟨"x", .above, 1⟩) ["b"] ∧
      (Snapshot.restore { loop := ⟨true, some "for", ["b"], some 2, some ⟨"x", .above, 1⟩⟩ }).loop =
        .collecting (.times 2) ["b"] ∧
      (Snapshot.restore { loop := ⟨true, some "while", ["b"], some 2, none⟩ }).loop = .closed := by
  refine ⟨snapshot_restored.2.1 _ _ rfl, snapshot_restored.1 _ (by simp), ?_, ?_, ?_⟩
  · exact ((snapshot_restored.2.2 _).2.1 _ _).2 ⟨rfl, ⟨by simp, rfl⟩, rfl⟩
  · exact ((snapshot_restored.2.2 _).1 _ _).2 ⟨rfl, ⟨rfl, by simp⟩, rfl⟩
  · refine (snapshot_restored.2.2 _).2.2.1 fun kind body h => ?_
    cases h

end SentenceScript
