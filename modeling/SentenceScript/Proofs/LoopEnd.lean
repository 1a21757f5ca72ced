import SentenceScript.Proofs.LoopMachine
import SentenceScript.Proofs.UnknownLines
import SentenceScript.Proofs.Unrolling

namespace SentenceScript

open SentenceScript.Action Text

namespace Text

/-- Folding and ASCII lower case differ only at the long s and the Kelvin sign, so they spell the same
words where these have neither an s nor a k. -/
theorem map_fold_eq_iff {s w : List Char} (h : ∀ c ∈ ['s', 'k', '\u017f', '\u212a'], c ∉ w) :
    s.map fold = w ↔ s.map Char.toLower = w := by
  simp only [List.forall_mem_cons] at h
  obtain ⟨hs, hk, hlong, hkelvin, -⟩ := h
  constructor
  · intro hf
    have hmem {c : Char} (hc : c ∈ s) : fold c ∈ w := hf ▸ List.mem_map_of_mem hc
    exact map_toLower_of_map_fold hf (fun hc => hs (hmem hc)) fun hc => hk (hmem hc)
  · intro hl
    exact map_fold_of_map_toLower hl hlong hkelvin

end Text

theorem endsLoop_iff (line : String) : endsLoop line = true ↔
    line.toList.map fold = "end".toList ∨ line.toList.map fold = "done".toList := by
  have hend : ∀ c ∈ ['s', 'k', '\u017f', '\u212a'], c ∉ "end".toList := by simp
  have hdone : ∀ c ∈ ['s', 'k', '\u017f', '\u212a'], c ∉ "done".toList := by simp
  rw [map_fold_eq_iff hend, map_fold_eq_iff hdone, endsLoop, Bool.or_eq_true, beq_iff_eq, beq_iff_eq]

theorem Shape.map_fold_of_endLoop {s : List Char} {captures : List (List Char)}
    (h : Shape.endLoop.Matches s captures) :
    s.map fold = "end".toList ∨ s.map fold = "done".toList := by
  obtain ⟨form, hf, hm⟩ := h
  cases List.mem_singleton.1 hf
  cases hm with
  | words w letters hw hl hrest =>
      cases hrest
      rw [List.append_nil, hl]
      rcases List.mem_pair.1 hw with rfl | rfl
      · exact .inl rfl
      · exact .inr rfl

namespace Sentence

/-- No shape but that of the end of a loop gives its command, and none before it in the catalog has
one of its words. -/
theorem commandIn_eq_endLoop_iff {s : List Char} : commandIn Shape.catalog s = .endLoop ↔
    s.map fold = "end".toList ∨ s.map fold = "done".toList := by
  refine ⟨fun h => ?_, commandIn_endWord⟩
  obtain ⟨shape, captures, hm, hb⟩ := exists_of_commandIn h (by simp)
  cases build?_shape hb
  exact Shape.map_fold_of_endLoop hm

theorem classify_eq_endLoop_iff (line : String) :
    (classify line).command = .endLoop ↔ endsLoop (trim line) = true := by
  rw [endsLoop_iff, trim, String.toList_ofList]
  exact commandIn_eq_endLoop_iff

end Sentence

namespace State

variable {world : World} {line : String} {s : State} {kind : LoopKind} {body : List String}

theorem feed_endLoop (hl : s.loop = .collecting kind body)
    (h : (Sentence.classify line).command = .endLoop) :
    s.feed world line = Replay.close world s :=
  feed_end hl ((Sentence.classify_eq_endLoop_iff line).1 h)

theorem feedAll_cons_endLoop (hl : s.loop = .collecting kind body)
    (h : (Sentence.classify line).command = .endLoop) (rest : List String) :
    s.feedAll world (line :: rest) = (Replay.close world >>= fun _ => feedAll world rest) s := by
  have hfeed : s.feed world line = Replay.close world s := feed_endLoop hl h
  cases hc : Replay.close world s with
  | ok _ t => rw [feedAll_cons_ok (hfeed.trans hc), bind_ok hc]
  | error e t => rw [feedAll_cons_error (hfeed.trans hc), bind_error hc]

/-- A line that spells another command does not end the loop, whatever it would do elsewhere. -/
theorem feedAll_collected_of_classify (world : World) {lines : List String}
    (h : ∀ l ∈ lines, (Sentence.classify l).command ≠ .endLoop)
    (hl : s.loop = .collecting kind body) :
    s.feedAll world lines =
      .ok () { s with loop := .collecting kind (body ++ collected lines) } := by
  refine feedAll_collected world (fun l hm => ?_) hl
  rw [← Bool.not_eq_true, ← Sentence.classify_eq_endLoop_iff]
  exact h l hm

theorem feed_closed_iff (hl : s.loop = .collecting kind body) :
    (Outcome.state (s.feed world line)).loop = .closed ↔
      (Sentence.classify line).command = .endLoop := by
  by_cases h : (Sentence.classify line).command = .endLoop
  · rw [feed_endLoop hl h]
    exact iff_of_true (Replay.close_loop hl) h
  · have hkept := feedAll_collected_of_classify world (List.forall_mem_singleton.2 h) hl
    rw [← feedAll_singleton, hkept]
    exact iff_of_false (fun hc => by cases hc) h

end State

/-- Of the lines without outer blanks those that are tested to end a loop are those that spell the
command for it. So while a loop is collected a line closes it if and only if it spells that command,
and is then executed as it would be at once. A script adds its lines to the body up to the first that
spells it, and the loop ends there. -/
theorem loop_end_tests_agree :
    (∀ line : String, trim line = line →
      (endsLoop line = true ↔ (Sentence.classify line).command = .endLoop)) ∧
    ∀ (world : World) (s : State) (kind : LoopKind) (body : List String),
      s.loop = .collecting kind body →
      (∀ line, ((Outcome.state (s.feed world line)).loop = .closed ↔
          (Sentence.classify line).command = .endLoop) ∧
        ((Sentence.classify line).command = .endLoop →
          s.feed world line = s.execute world line ∧
            s.execute world line = Replay.close world s)) ∧
      ∀ lines, (∀ line ∈ lines, (Sentence.classify line).command ≠ .endLoop) →
        s.feedAll world lines =
          .ok () { s with loop := .collecting kind (body ++ collected lines) } ∧
        ∀ last rest, (Sentence.classify last).command = .endLoop →
          s.feedAll world (lines ++ last :: rest) =
            (Replay.close world >>= fun _ => State.feedAll world rest)
              { s with loop := .collecting kind (body ++ collected lines) } := by
  refine ⟨fun line ht => ?_, fun world s kind body hl => ⟨fun line => ⟨State.feed_closed_iff hl, ?_⟩,
    fun lines hlines => ⟨State.feedAll_collected_of_classify world hlines hl, ?_⟩⟩⟩
  · rw [Sentence.classify_eq_endLoop_iff, ht]
  · intro hend
    rw [State.execute_eq_close world hend]
    exact ⟨State.feed_endLoop hl hend, rfl⟩
  · intro last rest hlast
    rw [State.feedAll_append_ok (State.feedAll_collected_of_classify world hlines hl)]
    exact State.feedAll_cons_endLoop rfl hlast rest

/-- Wide letters do not end a loop, nor does a condition in front of `end`. -/
theorem loop_end_tests_agree_wide_letters :
    let world : World := ⟨{}, Canned.services .epoch⟩
    let s : State := { loop := .collecting (.times 2) [] }
    (Sentence.classify "DoNe").command = .endLoop ∧
      (Sentence.classify "\uff45\uff4e\uff44").command ≠ .endLoop ∧
      s.feedAll world ["\uff45\uff4e\uff44", "if n is above 1, end", " DoNe\u3000", "show n"] =
        (Replay.close world >>= fun _ => State.feedAll world ["show n"])
          { loop := .collecting (.times 2) ["\uff45\uff4e\uff44", "if n is above 1, end"] } := by
  intro world s
  have hdone := (loop_end_tests_agree.1 "DoNe" rfl).1 rfl
  have hwide : (Sentence.classify "\uff45\uff4e\uff44").command ≠ .endLoop := fun h =>
    absurd ((loop_end_tests_agree.1 "\uff45\uff4e\uff44" rfl).2 h) (by decide)
  have hclause : (Sentence.classify "if n is above 1, end").command ≠ .endLoop := fun h =>
    absurd ((loop_end_tests_agree.1 "if n is above 1, end" rfl).2 h) (by decide)
  have hlast : (Sentence.classify " DoNe\u3000").command = .endLoop := by
    rw [← Sentence.classify_trim]
    exact hdone
  refine ⟨hdone, hwide, ?_⟩
  refine ((loop_end_tests_agree.2 world s (.times 2) [] rfl).2
    ["\uff45\uff4e\uff44", "if n is above 1, end"] ?_).2 " DoNe\u3000" ["show n"] hlast
  exact List.forall_mem_cons.2 ⟨hwide, List.forall_mem_singleton.2 hclause⟩

end SentenceScript
