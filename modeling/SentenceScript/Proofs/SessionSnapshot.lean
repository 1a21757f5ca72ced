import SentenceScript.Proofs.Grammar
import SentenceScript.Proofs.LoopMachine
import SentenceScript.Proofs.Permanence
import SentenceScript.Proofs.SnapshotText

namespace SentenceScript

open Json

namespace Session

/-- A session in which nothing was done but scripts and single lines run. -/
def Scripted (x : Session) : Prop := ∃ world, Continues ⟨world, {}⟩ x

namespace Scripted

variable {x : Session}

theorem reachable (h : x.Scripted) : x.Reachable := by
  obtain ⟨world, h⟩ := h
  induction h with
  | refl => exact .new world
  | run y source h ih => exact .call y (.run source) ih
  | feed y line h ih => exact .call y (.feed line) ih

theorem names_nodup (h : x.Scripted) : x.state.bindings.names.Nodup := by
  obtain ⟨world, h⟩ := h
  exact h.grows.unique List.nodup_nil

end Scripted

end Session

namespace LoopView

theorem toLoop_ofLoop {loop : Loop} (h : loop.Settled) : (ofLoop loop).toLoop = loop := by
  rcases h with rfl | ⟨kind, body, rfl⟩
  · rfl
  · cases kind with
    | times n => rfl
    | guarded guard => rfl

theorem isFinite_ofLoop {loop : Loop}
    (h : ∀ guard body, loop = .collecting (.guarded guard) body → guard.threshold.isFinite = true) :
    (ofLoop loop).isFinite = true := by
  cases loop with
  | collecting kind body =>
      cases kind with
      | times n => rfl
      | guarded guard => exact h guard body rfl
  | closed | replaying kind => rfl

end LoopView

namespace Session.Scripted

variable {x : Session}

theorem ofText_snapshot (h : x.Scripted) : Snapshot.ofText x.snapshot.compact =
    if x.snapshot.loop.isFinite then .ok x.snapshot else .error .mismatch :=
  (decode_compact Snapshot.read _).trans (Snapshot.read_scanned h.names_nodup)

theorem ofText_refused (h : x.Scripted) {guard : Guard} {body : List String}
    (hl : x.state.loop = .collecting (.guarded guard) body)
    (hx : guard.threshold.isFinite = false) :
    Snapshot.ofText x.snapshot.compact = .error .mismatch := by
  have hview : x.snapshot.loop.isFinite = false := by
    change (LoopView.ofLoop x.state.loop).isFinite = false
    rw [hl]
    exact hx
  rw [h.ofText_snapshot, hview]
  rfl

end Session.Scripted

/-- After any scripts and lines, the snapshot restores the state. Its text is read back, unless a loop
is open whose guard compares with a number that is not finite: the text has no form for such a
threshold, and is refused. -/
theorem scripted_snapshot_read_back {x : Session} (h : x.Scripted) :
    x.snapshot.restore = x.state ∧
    ((∀ guard body, x.state.loop = .collecting (.guarded guard) body →
        guard.threshold.isFinite = true) →
      Snapshot.ofText x.snapshot.compact = .ok x.snapshot) ∧
    ∀ guard body, x.state.loop = .collecting (.guarded guard) body →
      guard.threshold.isFinite = false → Snapshot.ofText x.snapshot.compact = .error .mismatch := by
  refine ⟨?_, fun hf => ?_, fun guard body hl hx => ?_⟩
  · have hloop : x.snapshot.loop.toLoop = x.state.loop :=
      LoopView.toLoop_ofLoop h.reachable.settled
    rw [Snapshot.restore, hloop]
    rfl
  · rw [h.ofText_snapshot, if_pos]
    exact LoopView.isFinite_ofLoop hf
  · exact h.ofText_refused hl hx

namespace Sentence

open Text Decimal

variable {name : List Char}

/-- The head of a loop whose guard compares with a natural number. -/
def whileLine (name : List Char) (n : Nat) : List Char :=
  "while ".toList ++ (name ++ (" is ".toList ++ ("above".toList ++ (" ".toList ++ digitChars n))))

theorem matches_whileLine (hn : Slot.IsName name) (n : Nat) :
    Shape.whileLoop.Matches (whileLine name n) [name, "above".toList, digitChars n] := by
  have habove : Slot.phrase.Accepts "above".toList ["above".toList] :=
    .phrase (c := .above) (w := "above") (by decide) rfl
  have h := Form.Matches.words "while " "while ".toList (List.mem_singleton_self _) rfl <|
    .slot (.name hn) <|
    .words " is " " is ".toList (List.mem_singleton_self _) rfl <|
    .slot habove <|
    .words " " " ".toList (List.mem_singleton_self _) rfl <|
    .slot (Slot.accepts_of_isNumeral (isNumeral_digitChars n)) .nil
  rw [List.append_nil] at h
  exact ⟨_, List.mem_singleton_self _, h⟩

theorem isLine_whileLine (hn : Slot.IsName name) (n : Nat) : IsLine (whileLine name n) where
  ne_nil := List.append_ne_nil_of_left_ne_nil (by decide) _
  strip_eq := by
    have hhead : ∀ c ∈ "while ".toList.head?, isBlank c = false := by rintro _ ⟨⟩; rfl
    have h := strip_append (name ++ " is above ".toList) (by decide) (digitChars_ne_nil n) hhead
      (isNumeral_digitChars n).last_not_blank
    rwa [List.append_assoc] at h
  one_row := by
    have hname : '\n' ∉ name := hn.not_mem (by decide)
    have hdigits : '\n' ∉ digitChars n :=
      (isNumeral_digitChars n).not_mem (by decide) (by decide) (by decide)
    delta whileLine
    simp only [List.mem_append, not_or]
    exact ⟨by decide, hname, by decide, by decide, by decide, hdigits⟩

theorem classify_whileLine (hn : Slot.IsName name) (n : Nat) :
    (classify (String.ofList (whileLine name n))).command =
      .whileLoop (String.ofList name) .above "above" (toFloat ⟨false, n, 0⟩) := by
  rw [classify, String.toList_ofList, (isLine_whileLine hn n).strip_eq,
    commandIn_of_matches (matches_whileLine hn n) (by decide)]
  change ((number? (digitChars n)).bind _).getD _ = _
  rw [(isNumeral_digitChars n).value_eq]
  rfl

end Sentence

/-- The session after the head of a loop that compares with a natural number. -/
def loopHead (n : Nat) : Session :=
  ((⟨⟨{}, Canned.services .epoch⟩, {}⟩ : Session).run
    (String.ofList (Sentence.whileLine ['x'] n))).session

theorem loopHead_loop (n : Nat) : (loopHead n).state.loop =
    .collecting (.guarded ⟨"x", .above, Decimal.toFloat ⟨false, n, 0⟩⟩) [] := by
  have hn : Slot.IsName ['x'] := ⟨'x', [], rfl, by decide, nofun⟩
  have hline := Sentence.isLine_whileLine hn n
  have hlines : Text.scriptLines (String.ofList (Sentence.whileLine ['x'] n)) =
      [String.ofList (Sentence.whileLine ['x'] n)] := by
    have h := @Text.scriptLines_intercalate [Sentence.whileLine ['x'] n] (by simpa)
    rwa [List.map_singleton, String.intercalate_singleton] at h
  have hf := State.feed_line ⟨{}, Canned.services .epoch⟩ (s := {}) rfl hline
    (Sentence.classify_whileLine hn n) nofun
  rw [loopHead, Session.run_state, hlines, State.record_ok (State.feedAll_singleton.trans hf)]
  rfl

theorem scripted_snapshot_read_back_open_loop :
    (loopHead 3).Scripted ∧ (loopHead 3).snapshot.restore = (loopHead 3).state ∧
      Snapshot.ofText (loopHead 3).snapshot.compact = .ok (loopHead 3).snapshot := by
  have hs : (loopHead 3).Scripted := ⟨_, .run _ _ .refl⟩
  obtain ⟨hrestore, hread, -⟩ := scripted_snapshot_read_back hs
  refine ⟨hs, hrestore, hread fun guard body hl => ?_⟩
  rw [loopHead_loop] at hl
  cases hl
  decide

/-- A threshold of 310 nines is read as infinity. -/
theorem loopHead_snapshot_refused :
    let x := loopHead (Decimal.pow10 310 - 1)
    x.Scripted ∧ Snapshot.ofText x.snapshot.compact = .error .mismatch := by
  intro x
  have hs : x.Scripted := ⟨_, .run _ _ .refl⟩
  exact ⟨hs, hs.ofText_refused (loopHead_loop _) (by decide +kernel)⟩

end SentenceScript
