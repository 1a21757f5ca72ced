import SentenceScript.Proofs.WrittenSentences

namespace SentenceScript

open Text Decimal

/-- The shape of the sentences that spell such a command. An unknown command has none. -/
def Command.shape? : Command → Option Shape
  | createNumber .. => some .createNumber
  | createText .. => some .createText
  | add .. => some .add
  | subtract .. => some .subtract
  | multiply .. => some .multiply
  | divide .. => some .divide
  | createTask .. => some .createTask
  | completeTask _ => some .completeTask
  | showTasks => some .showTasks
  | showTasksWith _ => some .showTasksWith
  | conditional ⟨_, _, .literal _⟩ _ _ => some .ifNumber
  | conditional ⟨_, _, .named _⟩ _ _ => some .ifVariable
  | repeatLoop _ => some .repeatLoop
  | whileLoop .. => some .whileLoop
  | endLoop => some .endLoop
  | connectApi _ => some .connectApi
  | search .. => some .search
  | getResponse => some .getResponse
  | connectServer .. => some .connectServer
  | disconnectServer _ => some .disconnectServer
  | sendMessage _ _ (.named _) => some .sendVariable
  | sendMessage _ _ (.literal _) => some .sendText
  | awaitReply => some .awaitReply
  | storeReply _ => some .storeReply
  | measureLength .. => some .measureLength
  | showVariable _ => some .showVariable
  | showText _ => some .showText
  | showResponse => some .showResponse
  | comment _ => some .comment
  | unknown => none

namespace Slot

variable {text : List Char} {captures : List (List Char)}

theorem Accepts.number_eq (h : Slot.number.Accepts text captures) :
    ∃ x : Literal, captures = [x.chars] := by
  cases h with
  | number x => exact ⟨x, rfl⟩

theorem Accepts.phrase_eq (h : Slot.phrase.Accepts text captures) :
    ∃ (phrase : List Char) (c : Comparison), ∃ w ∈ c.words,
      captures = [phrase] ∧ phrase.map fold = w.toList := by
  cases h with
  | phrase hw hs => exact ⟨text, _, _, hw, rfl, hs⟩

end Slot

namespace Form

/-- Each slot gives its own captures, in the order of the slots. -/
theorem Matches.groups {form : Form} {s : List Char} {captures : List (List Char)}
    (h : form.Matches s captures) : ∃ groups, captures = groups.flatten ∧
      List.Forall₂ (fun group kind => ∃ text, Slot.Accepts kind text group) groups form.slots := by
  induction h with
  | nil => exact ⟨[], rfl, .nil⟩
  | words w letters hw hl h ih => exact ih
  | @slot kind form text rest taken captures ht h ih =>
      obtain ⟨groups, rfl, hg⟩ := ih
      exact ⟨taken :: groups, rfl, .cons ⟨text, ht⟩ hg⟩

end Form

namespace Sentence

variable {shape : Shape} {s : List Char} {captures : List (List Char)}

/-- Whether captures name no command: a count of more than 64 bits does not, nor does a comparison
with a long s in it. -/
def Unnamed : Shape → List (List Char) → Prop
  | .repeatLoop, [digits] => UInt64.size ≤ valueOf digits
  | .ifNumber, _ :: phrase :: _ | .ifVariable, _ :: phrase :: _ | .whileLoop, _ :: phrase :: _ =>
      phrase.map fold = "less than".toList ∧ '\u017f' ∈ phrase
  | _, _ => False

theorem build?_shape {command : Command} (h : build? shape captures = some command) :
    command.shape? = some shape := by
  revert command
  rw [build?.eq_def]
  split <;> simp only [conditional?, bind, pure, Option.bind_eq_some_iff, Option.map_eq_some_iff,
    Option.some.injEq, forall_exists_index, and_imp, forall_eq', reduceCtorEq, false_implies,
    implies_true]
  all_goals (intros; subst_vars; rfl)

theorem comparison?_eq_none_iff {c : Comparison} {w : String} {phrase : List Char}
    (hw : w ∈ c.words) (hp : phrase.map fold = w.toList) :
    comparison? phrase = none ↔ phrase.map fold = "less than".toList ∧ '\u017f' ∈ phrase := by
  have hless := Comparison.forall_words hw (P := fun w => 's' ∈ w.toList → w = "less than") (by decide)
  have hplain : ∀ a ∈ Comparison.phrases, '\u017f' ∉ a.1.toList ∧ 'k' ∉ a.1.toList := by decide
  rw [comparison?, Comparison.ofPhrase?, String.toList_ofList]
  by_cases hs : '\u017f' ∈ phrase
  · refine iff_of_true (List.lookup_eq_none_iff.2 fun b hb => ?_) ⟨?_, hs⟩
    · rw [bne_iff_ne]
      intro he
      apply (hplain b hb).1
      rw [← he, String.toList_ofList]
      exact List.mem_map_of_mem hs
    · have hm : fold '\u017f' ∈ w.toList := hp ▸ List.mem_map_of_mem hs
      rw [hp, hless hm]
  · have hk : '\u212a' ∉ phrase := fun hm =>
      (hplain (w, c) (Comparison.mem_phrases_iff.2 hw)).2 (hp ▸ List.mem_map_of_mem (f := fold) hm)
    rw [map_toLower_of_map_fold hp hs hk, String.ofList_toList, Comparison.lookup_phrases hw]
    exact iff_of_false (Option.some_ne_none _) fun h => hs h.2

theorem count?_eq_none_iff {digits : List Char} :
    count? digits = none ↔ UInt64.size ≤ valueOf digits := by
  rw [count?]
  split
  · next h => exact iff_of_false (Option.some_ne_none _) (Nat.not_le.2 h)
  · next h => exact iff_of_true rfl (Nat.le_of_not_lt h)

theorem conditional?_eq_none_iff {subject phrase yes : List Char} {operand : Operand}
    {no : Option (List Char)} :
    conditional? subject phrase (some operand) yes no = none ↔ comparison? phrase = none := by
  cases h : comparison? phrase <;> simp [conditional?, h]

/-- What a shape captures names a command, but for the two exceptions: number literals, names and
quoted texts are always good. -/
theorem build?_eq_none_iff (h : shape.Matches s captures) :
    build? shape captures = none ↔ Unnamed shape captures := by
  have hnumber (x : Literal) : number? x.chars = some x.value := x.isNumeral.value_eq
  obtain ⟨form, hf, hm⟩ := h
  obtain ⟨groups, rfl, hg⟩ := hm.groups
  cases shape with
  | showTasks | endLoop | getResponse | awaitReply | showResponse =>
      cases List.mem_singleton.1 hf
      cases hg
      exact iff_of_false (Option.some_ne_none _) id
  | completeTask | showTasksWith | connectApi | disconnectServer | storeReply | showVariable
  | showText | comment =>
      cases List.mem_singleton.1 hf
      obtain _ | ⟨⟨t, ⟨⟩⟩, ⟨⟩⟩ := hg
      exact iff_of_false (Option.some_ne_none _) id
  | createText | createTask | search | connectServer | measureLength =>
      cases List.mem_singleton.1 hf
      obtain _ | ⟨⟨t, ⟨⟩⟩, _ | ⟨⟨u, ⟨⟩⟩, ⟨⟩⟩⟩ := hg
      exact iff_of_false (Option.some_ne_none _) id
  | createNumber | multiply | divide =>
      cases List.mem_singleton.1 hf
      obtain _ | ⟨⟨t, ⟨⟩⟩, _ | ⟨⟨u, hu⟩, ⟨⟩⟩⟩ := hg
      obtain ⟨x, rfl⟩ := hu.number_eq
      refine iff_of_false ?_ id
      change (number? x.chars).map _ ≠ none
      rw [hnumber]
      exact Option.some_ne_none _
  | add | subtract =>
      cases List.mem_singleton.1 hf
      obtain _ | ⟨⟨u, hu⟩, _ | ⟨⟨t, ⟨⟩⟩, ⟨⟩⟩⟩ := hg
      obtain ⟨x, rfl⟩ := hu.number_eq
      refine iff_of_false ?_ id
      change (number? x.chars).map _ ≠ none
      rw [hnumber]
      exact Option.some_ne_none _
  | repeatLoop =>
      cases List.mem_singleton.1 hf
      obtain _ | ⟨⟨t, ⟨⟩⟩, ⟨⟩⟩ := hg
      exact Option.map_eq_none_iff.trans count?_eq_none_iff
  | whileLoop =>
      cases List.mem_singleton.1 hf
      obtain _ | ⟨⟨t, ⟨⟩⟩, _ | ⟨⟨p, hp⟩, _ | ⟨⟨u, hu⟩, ⟨⟩⟩⟩⟩ := hg
      obtain ⟨phrase, c, w, hw, rfl, hfold⟩ := hp.phrase_eq
      obtain ⟨x, rfl⟩ := hu.number_eq
      refine Iff.trans ?_ (comparison?_eq_none_iff hw hfold)
      change ((comparison? phrase).bind fun c => (number? x.chars).bind fun y => some _) = none ↔ _
      rw [hnumber]
      cases comparison? phrase <;> simp
  | ifNumber =>
      cases List.mem_singleton.1 hf
      obtain _ | ⟨⟨t, ⟨⟩⟩, _ | ⟨⟨p, hp⟩, _ | ⟨⟨u, hu⟩, _ | ⟨⟨r, hr⟩, ⟨⟩⟩⟩⟩⟩ := hg
      obtain ⟨phrase, c, w, hw, rfl, hfold⟩ := hp.phrase_eq
      obtain ⟨x, rfl⟩ := hu.number_eq
      refine Iff.trans ?_ (comparison?_eq_none_iff hw hfold)
      cases hr with
      | clause | clauses =>
          change conditional? _ phrase ((number? x.chars).map .literal) _ _ = none ↔ _
          rw [hnumber]
          exact conditional?_eq_none_iff
  | ifVariable =>
      cases List.mem_singleton.1 hf
      obtain _ | ⟨⟨t, ⟨⟩⟩, _ | ⟨⟨p, hp⟩, _ | ⟨⟨u, ⟨⟩⟩, _ | ⟨⟨r, hr⟩, ⟨⟩⟩⟩⟩⟩ := hg
      obtain ⟨phrase, c, w, hw, rfl, hfold⟩ := hp.phrase_eq
      refine Iff.trans ?_ (comparison?_eq_none_iff hw hfold)
      cases hr with
      | clause | clauses => exact conditional?_eq_none_iff
  | sendVariable | sendText =>
      rcases List.mem_pair.1 hf with rfl | rfl
      · obtain _ | ⟨⟨t, ⟨⟩⟩, _ | ⟨⟨u, ⟨⟩⟩, _ | ⟨⟨v, ⟨⟩⟩, ⟨⟩⟩⟩⟩ := hg
        exact iff_of_false (Option.some_ne_none _) id
      · obtain _ | ⟨⟨t, ⟨⟩⟩, _ | ⟨⟨u, ⟨⟩⟩, ⟨⟩⟩⟩ := hg
        exact iff_of_false (Option.some_ne_none _) id

theorem Unnamed.not_shared (h : Unnamed shape captures) :
    shape ∉ [Shape.showTasks, .showVariable, .showResponse] := by
  intro hm
  simp only [List.mem_cons, List.not_mem_nil, or_false] at hm
  rcases hm with rfl | rfl | rfl <;> exact h

theorem commandIn_eq_unknown_iff : commandIn Shape.catalog s = .unknown ↔
    (∀ shape captures, ¬ Shape.Matches shape s captures) ∨
      ∃ shape captures, Shape.Matches shape s captures ∧ Unnamed shape captures := by
  rw [commandIn]
  split
  · next shape captures hfind =>
      obtain ⟨a, -, ha⟩ := List.exists_of_findSome?_eq_some hfind
      obtain ⟨x, hread, heq⟩ := Option.map_eq_some_iff.1 ha
      cases heq
      have hm := Shape.read?_eq_some_iff.1 hread
      have hunnamed : (∃ other captures', Shape.Matches other s captures' ∧ Unnamed other captures') ↔
          Unnamed shape captures := by
        constructor
        · rintro ⟨other, captures', hm', hu⟩
          cases hm'.unique hm hu.not_shared
          cases (Shape.read?_eq_some_iff.2 hm').symm.trans hread
          exact hu
        · exact fun hu => ⟨shape, captures, hm, hu⟩
      rw [hunnamed, ← build?_eq_none_iff hm, or_iff_right fun hn => hn shape captures hm]
      cases hb : build? shape captures with
      | none => exact iff_of_true rfl rfl
      | some command =>
          refine iff_of_false ?_ (Option.some_ne_none _)
          rintro rfl
          cases build?_shape hb
  · next hnone =>
      refine iff_of_true rfl (.inl fun shape captures hm => ?_)
      have hread := List.findSome?_eq_none_iff.1 hnone shape (Shape.mem_catalog shape)
      rw [Shape.read?_eq_some_iff.2 hm] at hread
      cases hread

theorem exists_unnamed_iff :
    (∃ shape captures, Shape.Matches shape s captures ∧ Unnamed shape captures) ↔
      (∃ digits, Shape.repeatLoop.Matches s [digits] ∧ UInt64.size ≤ valueOf digits) ∨
      ∃ shape ∈ [Shape.ifNumber, .ifVariable, .whileLoop], ∃ subject phrase more,
        shape.Matches s (subject :: phrase :: more) ∧
          phrase.map fold = "less than".toList ∧ '\u017f' ∈ phrase := by
  constructor
  · rintro ⟨shape, captures, hm, hu⟩
    rw [Unnamed.eq_def] at hu
    split at hu
    · exact .inl ⟨_, hm, hu⟩
    · exact .inr ⟨_, by simp, _, _, _, hm, hu⟩
    · exact .inr ⟨_, by simp, _, _, _, hm, hu⟩
    · exact .inr ⟨_, by simp, _, _, _, hm, hu⟩
    · exact absurd hu id
  · rintro (⟨digits, hm, hu⟩ | ⟨shape, hs, subject, phrase, more, hm, hu⟩)
    · exact ⟨.repeatLoop, [digits], hm, hu⟩
    · refine ⟨shape, _, hm, ?_⟩
      simp only [List.mem_cons, List.not_mem_nil, or_false] at hs
      rcases hs with rfl | rfl | rfl <;> exact hu

/-- A command that is not unknown is of the first shape that the line has. -/
theorem commandIn_shape (h : commandIn Shape.catalog s ≠ .unknown) :
    (commandIn Shape.catalog s).shape? =
      Shape.catalog.find? fun shape => (shape.read? s).isSome := by
  rw [commandIn] at h ⊢
  split at h
  · next shape captures hfind =>
      obtain ⟨before, a, after, hcatalog, ha, hb⟩ := List.findSome?_eq_some_iff.1 hfind
      obtain ⟨x, hread, heq⟩ := Option.map_eq_some_iff.1 ha
      cases heq
      have hfirst : Shape.catalog.find? (fun shape => (shape.read? s).isSome) = some shape := by
        refine List.find?_eq_some_iff_append.2 ⟨by rw [hread]; rfl, before, after, hcatalog, ?_⟩
        intro other ho
        rw [Option.map_eq_none_iff.1 (hb other ho)]
        rfl
      simp only [hfirst]
      cases hbuild : build? shape captures with
      | none => rw [hbuild] at h; exact absurd rfl h
      | some command => exact build?_shape hbuild
  · exact absurd rfl h

end Sentence

/-- A line is unknown if and only if it has no shape of the catalog, or repeats a loop a number of
times that is no word of 64 bits, or compares with `less than` spelled with a long s. Every other line
is of the first shape of the catalog that it has. To have a shape is to be in its grammar. -/
theorem unknown_lines (line : String) :
    (∀ shape : Shape, shape.fits (trim line) = true ↔
      ∃ captures, shape.Matches (trim line).toList captures) ∧
    ((Sentence.classify line).command = .unknown ↔
      (∀ shape ∈ Shape.catalog, shape.fits (trim line) = false) ∨
      (∃ digits, Shape.repeatLoop.Matches (trim line).toList [digits] ∧
        UInt64.size ≤ valueOf digits) ∨
      ∃ shape ∈ [Shape.ifNumber, .ifVariable, .whileLoop], ∃ subject phrase more,
        shape.Matches (trim line).toList (subject :: phrase :: more) ∧
          phrase.map fold = "less than".toList ∧ '\u017f' ∈ phrase) ∧
    ((Sentence.classify line).command ≠ .unknown →
      (Sentence.classify line).command.shape? = Shape.catalog.find? (·.fits (trim line))) := by
  have htrim : (trim line).toList = strip line.toList := by rw [trim, String.toList_ofList]
  refine ⟨fun shape => Shape.fits_iff, ?_, fun h => ?_⟩
  · have hnone : (∀ shape captures, ¬ Shape.Matches shape (strip line.toList) captures) ↔
        ∀ shape ∈ Shape.catalog, shape.fits (trim line) = false := by
      refine forall_congr' fun shape => ?_
      rw [← Bool.not_eq_true, Shape.fits_iff, htrim, not_exists]
      exact ⟨fun h _ => h, fun h => h (Shape.mem_catalog shape)⟩
    rw [htrim, ← hnone, ← Sentence.exists_unnamed_iff]
    exact Sentence.commandIn_eq_unknown_iff
  · simp only [Shape.fits, htrim]
    exact Sentence.commandIn_shape h

/-- The two exceptions, and a count that is just not too large. -/
theorem unknown_lines_long_s :
    (Sentence.classify " while x is le\u017fs than 5").command = .unknown ∧
      Shape.whileLoop.fits "while x is le\u017fs than 5" = true ∧
      (Sentence.classify "repeat 18446744073709551616 times").command = .unknown ∧
      (Sentence.classify "repeat 18446744073709551615 times").command.shape? =
        Shape.catalog.find? (·.fits "repeat 18446744073709551615 times") := by
  have hless : Shape.whileLoop.Matches "while x is le\u017fs than 5".toList
      ["x".toList, "le\u017fs than".toList, "5".toList] :=
    Shape.read?_eq_some_iff.1 rfl
  have hcount : Shape.repeatLoop.Matches "repeat 18446744073709551616 times".toList
      ["18446744073709551616".toList] := Shape.read?_eq_some_iff.1 rfl
  refine ⟨?_, ?_, ?_, ?_⟩
  · refine (unknown_lines _).2.1.2 (.inr (.inr ⟨.whileLoop, by simp, _, _, _, hless, ?_, ?_⟩))
    · rfl
    · decide
  · exact ((unknown_lines "while x is le\u017fs than 5").1 _).2 ⟨_, hless⟩
  · exact (unknown_lines _).2.1.2 (.inr (.inl ⟨_, hcount, by decide⟩))
  · refine (unknown_lines "repeat 18446744073709551615 times").2.2 ?_
    have hc : (Sentence.classify "repeat 18446744073709551615 times").command =
        .repeatLoop 18446744073709551615 := rfl
    rw [hc]
    intro h
    cases h

end SentenceScript
