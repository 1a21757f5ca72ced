import SentenceScript.Proofs.Grammar

namespace SentenceScript

open Text

namespace Filling

def Fills (f : Filling) : Slot → Prop
  | .name => ∃ n, f = name n
  | .number => ∃ x, f = number x
  | .count => ∃ n, f = count n
  | .quoted => ∃ q, f = quoted q
  | .phrase => ∃ p, f = phrase p
  | .clauses => False
  | .remark => ∃ r, f = remark r

theorem fills_slot (f : Filling) : f.Fills f.slot := by
  cases f <;> exact ⟨_, rfl⟩

theorem accepts (f : Filling) : f.slot.Accepts f.written [f.captured] := by
  cases f with
  | name n => exact .name n.isName
  | number x => exact .number x
  | count n => exact .count n.ne_nil n.valid
  | quoted q => exact .quoted q
  | phrase p => exact .phrase p.named p.map_fold
  | remark r =>
      have hrow := r.one_row
      have hstrip := strip_eq_dropBlanks r.last
      rw [hstrip] at hrow
      rw [captured, hstrip]
      exact Slot.accepts_remark hrow

end Filling

/-- The two characters that fold onto letters without being such are in no name. -/
theorem Identifier.map_fold (n : Identifier) : n.chars.map fold = n.chars.map Char.toLower := by
  refine List.map_congr_left fun c hc => ?_
  exact ascii_forall (P := fun c => fold c = c.toLower) (by decide) (isAlphanum_lt (n.valid c hc))

theorem Phrase.comparison?_eq (p : Phrase) : Sentence.comparison? p.chars = some p.comparison := by
  rw [Sentence.comparison?, Comparison.ofPhrase?, String.toList_ofList]
  exact Comparison.lookup_phrases p.named

namespace Form

variable {form : Form} {fillings : List Filling} {s : List Char}

theorem Spells.fills (h : form.Spells fillings s) : fillings.Forall₂ Filling.Fills form.slots := by
  induction h with
  | nil => exact .nil
  | words w letters hw hl h ih => exact ih
  | slot f h ih => exact .cons f.fills_slot ih

theorem Spells.clauses_not_mem (h : form.Spells fillings s) : .clauses ∉ form.slots := by
  induction h with
  | nil => exact List.not_mem_nil
  | words w letters hw hl h ih => exact ih
  | slot f h ih =>
      rw [slots, List.mem_cons, not_or]
      refine ⟨fun he => ?_, ih⟩
      have hf := f.fills_slot
      rw [← he] at hf
      exact hf

/-- Whether the two characters that fold onto letters without being such are in no words of a form. -/
def plain : Form → Bool
  | [] => true
  | .words choices :: ps =>
      choices.all (fun w => !w.toList.contains '\u017f' && !w.toList.contains '\u212a') && plain ps
  | .slot _ :: ps => plain ps

theorem map_fold_of_plain {choices : List String} {w : String} {letters : List Char}
    (hp : plain (.words choices :: form) = true) (hw : w ∈ choices)
    (hl : letters.map Char.toLower = w.toList) : letters.map fold = w.toList := by
  simp only [plain, Bool.and_eq_true, List.all_eq_true, Bool.not_eq_true',
    List.contains_eq_mem, decide_eq_false_iff_not] at hp
  obtain ⟨hs, hk⟩ := hp.1 w hw
  exact map_fold_of_map_toLower hl hs hk

theorem Spells.matches (h : form.Spells fillings s) (hp : form.plain = true) :
    form.Matches s (fillings.map Filling.captured) := by
  induction h with
  | nil => exact .nil
  | words w letters hw hl h ih =>
      exact .words w letters hw (map_fold_of_plain hp hw hl) (ih (Bool.and_eq_true_iff.1 hp).2)
  | slot f h ih => exact .slot f.accepts (ih hp)

/-- Where names alone stand in the slots, no character folds but by its case. -/
theorem Spells.map_fold (h : form.Spells fillings s) (hp : form.plain = true)
    (hn : ∀ kind ∈ form.slots, kind = .name) : s.map fold = s.map Char.toLower := by
  induction h with
  | nil => rfl
  | words w letters hw hl h ih =>
      rw [List.map_append, List.map_append, map_fold_of_plain hp hw hl, hl,
        ih (Bool.and_eq_true_iff.1 hp).2 hn]
  | slot f h ih =>
      rw [slots, List.forall_mem_cons] at hn
      rw [List.map_append, List.map_append, ih hp hn.2]
      congr 1
      have hf := f.fills_slot
      rw [hn.1] at hf
      obtain ⟨n, rfl⟩ := hf
      exact n.map_fold

end Form

namespace Shape

/-- What a sentence of each shape means, by what stands in its slots. -/
def meaning : Shape → List Filling → Option Command
  | createNumber, [.name n, .number x] => some (.createNumber n.text x.value)
  | createText, [.name n, .quoted t] => some (.createText n.text t.text)
  | add, [.number x, .name n] => some (.add x.value n.text)
  | subtract, [.number x, .name n] => some (.subtract x.value n.text)
  | multiply, [.name n, .number x] => some (.multiply n.text x.value)
  | divide, [.name n, .number x] => some (.divide n.text x.value)
  | createTask, [.quoted task, .quoted status] => some (.createTask task.text status.text)
  | completeTask, [.quoted task] => some (.completeTask task.text)
  | showTasks, [] => some .showTasks
  | showTasksWith, [.quoted status] => some (.showTasksWith status.text)
  | repeatLoop, [.count n] => some (.repeatLoop n.value)
  | whileLoop, [.name n, .phrase p, .number x] =>
      some (.whileLoop n.text p.comparison p.text x.value)
  | endLoop, [] => some .endLoop
  | connectApi, [.quoted endpoint] => some (.connectApi endpoint.text)
  | search, [.quoted query, .quoted key] => some (.search query.text key.text)
  | getResponse, [] => some .getResponse
  | connectServer, [.quoted url, .quoted protocol] => some (.connectServer url.text protocol.text)
  | disconnectServer, [.quoted url] => some (.disconnectServer url.text)
  | sendVariable, [.quoted model, .name message] =>
      some (.sendMessage model.text none (.named message.text))
  | sendVariable, [.quoted model, .name system, .name message] =>
      some (.sendMessage model.text (some system.text) (.named message.text))
  | sendText, [.quoted model, .quoted message] =>
      some (.sendMessage model.text none (.literal message.text))
  | sendText, [.quoted model, .name system, .quoted message] =>
      some (.sendMessage model.text (some system.text) (.literal message.text))
  | awaitReply, [] => some .awaitReply
  | storeReply, [.quoted target] => some (.storeReply target.text)
  | measureLength, [.name source, .name target] => some (.measureLength source.text target.text)
  | showVariable, [.name n] => some (.showVariable n.text)
  | showText, [.quoted t] => some (.showText t.text)
  | showResponse, [] => some .showResponse
  | comment, [.remark r] => some (.comment r.text)
  | _, _ => none

variable {shape : Shape} {fillings : List Filling} {s : List Char}

theorem exists_meaning (h : shape.Spells fillings s) :
    ∃ command, shape.meaning fillings = some command ∧
      Sentence.build? shape (fillings.map Filling.captured) = some command := by
  have hnumber (x : Literal) : Sentence.number? x.chars = some x.value :=
    x.isNumeral.value_eq
  have hcount (n : Count) : Sentence.count? n.digits = some n.value := dif_pos n.below
  obtain ⟨form, hf, hs⟩ := h
  have h := hs.fills
  cases shape with
  | showTasks | endLoop | getResponse | awaitReply | showResponse =>
      cases List.mem_singleton.1 hf
      cases h
      exact ⟨_, rfl, rfl⟩
  | completeTask | showTasksWith | connectApi | disconnectServer | storeReply | showVariable
  | showText | comment =>
      cases List.mem_singleton.1 hf
      obtain _ | ⟨⟨v, rfl⟩, ⟨⟩⟩ := h
      exact ⟨_, rfl, rfl⟩
  | createText | createTask | search | connectServer | measureLength =>
      cases List.mem_singleton.1 hf
      obtain _ | ⟨⟨v, rfl⟩, _ | ⟨⟨w, rfl⟩, ⟨⟩⟩⟩ := h
      exact ⟨_, rfl, rfl⟩
  | createNumber | multiply | divide =>
      cases List.mem_singleton.1 hf
      obtain _ | ⟨⟨n, rfl⟩, _ | ⟨⟨x, rfl⟩, ⟨⟩⟩⟩ := h
      refine ⟨_, rfl, ?_⟩
      change (Sentence.number? x.chars).map _ = _
      rw [hnumber]
      rfl
  | add | subtract =>
      cases List.mem_singleton.1 hf
      obtain _ | ⟨⟨x, rfl⟩, _ | ⟨⟨n, rfl⟩, ⟨⟩⟩⟩ := h
      refine ⟨_, rfl, ?_⟩
      change (Sentence.number? x.chars).map _ = _
      rw [hnumber]
      rfl
  | repeatLoop =>
      cases List.mem_singleton.1 hf
      obtain _ | ⟨⟨n, rfl⟩, ⟨⟩⟩ := h
      refine ⟨_, rfl, ?_⟩
      change (Sentence.count? n.digits).map _ = _
      rw [hcount]
      rfl
  | whileLoop =>
      cases List.mem_singleton.1 hf
      obtain _ | ⟨⟨n, rfl⟩, _ | ⟨⟨p, rfl⟩, _ | ⟨⟨x, rfl⟩, ⟨⟩⟩⟩⟩ := h
      refine ⟨_, rfl, ?_⟩
      change ((Sentence.comparison? p.chars).bind fun c => (Sentence.number? x.chars).bind fun y =>
        some (Command.whileLoop n.text c p.text y)) = _
      rw [p.comparison?_eq, hnumber, Option.bind_some, Option.bind_some]
  | sendVariable | sendText =>
      rcases List.mem_pair.1 hf with rfl | rfl
      · obtain _ | ⟨⟨m, rfl⟩, _ | ⟨⟨p, rfl⟩, _ | ⟨⟨u, rfl⟩, ⟨⟩⟩⟩⟩ := h
        exact ⟨_, rfl, rfl⟩
      · obtain _ | ⟨⟨m, rfl⟩, _ | ⟨⟨u, rfl⟩, ⟨⟩⟩⟩ := h
        exact ⟨_, rfl, rfl⟩
  | ifNumber | ifVariable =>
      -- No sentence is written here with the clauses of a conditional.
      cases List.mem_singleton.1 hf
      exact absurd (by decide) hs.clauses_not_mem

theorem forms_plain (shape : Shape) : ∀ form ∈ shape.forms, form.plain = true ∧
    (.clauses ∈ form.slots ∨ form.opens = true ∧ form.closes = true) := by
  cases shape <;> decide +kernel

/-- What is spelled is in the grammar. -/
theorem Spells.matches (h : shape.Spells fillings s) :
    shape.Matches s (fillings.map Filling.captured) := by
  obtain ⟨form, hf, h⟩ := h
  exact ⟨form, hf, Form.Spells.matches h (forms_plain shape form hf).1⟩

theorem read?_of_spells (h : shape.Spells fillings s) :
    shape.read? s = some (fillings.map Filling.captured) :=
  read?_eq_some_iff.2 h.matches

theorem strip_of_spells (h : shape.Spells fillings s) : strip s = s := by
  obtain ⟨form, hf, h⟩ := h
  obtain ⟨ho, hc⟩ := (forms_plain shape form hf).2.resolve_left h.clauses_not_mem
  exact Form.strip_of_spells h ho hc

theorem map_fold_of_spells (h : shape.Spells fillings s)
    (hn : ∀ form ∈ shape.forms, ∀ kind ∈ form.slots, kind = .name) :
    s.map fold = s.map Char.toLower := by
  obtain ⟨form, hf, h⟩ := h
  exact h.map_fold (forms_plain shape form hf).1 (hn form hf)

end Shape

namespace Sentence

open Shape

variable {shape : Shape} {s : List Char}

theorem commandIn_showTasks (h : s.map fold = "show tasks".toList) :
    commandIn catalog s = .showTasks := by
  refine commandIn_of_earliest (read?_showTasks h) fun other ho => ?_
  rcases (read?_isSome_showTasks h).1 ho with rfl | rfl <;> decide

theorem commandIn_showResponse (h : s.map fold = "show response".toList) :
    commandIn catalog s = .showVariable (String.ofList (s.drop 5)) := by
  refine commandIn_of_earliest (read?_shown_response h) fun other ho => ?_
  rcases (read?_isSome_showResponse h).1 ho with rfl | rfl <;> decide +kernel

theorem commandIn_of_spells {fillings : List Filling} {command : Command}
    (h : shape.Spells fillings s)
    (hc : build? shape (fillings.map Filling.captured) = some command)
    (ht : s.map fold ≠ "show tasks".toList) (hn : s.map fold ≠ "show response".toList) :
    commandIn catalog s = command := by
  have hr := read?_of_spells h
  rw [commandIn_of_earliest hr, hc, Option.getD_some]
  intro other ho hm
  have hne : (other != shape) = true := List.mem_takeWhile_imp (p := (· != shape)) hm
  rcases shared_of_read? (bne_iff_ne.1 hne) ho (by rw [hr]; rfl) with ⟨hs, -⟩ | ⟨hs, -⟩
  · exact ht hs
  · exact hn hs

theorem classify_of_spells {line : String} {fillings : List Filling} {command : Command}
    (h : shape.Spells fillings line.toList) (hm : shape.meaning fillings = some command)
    (hs : shape ∉ [showTasks, showVariable, showResponse]) : (classify line).command = command := by
  obtain ⟨_, hmeaning, hbuild⟩ := exists_meaning h
  cases hm.symm.trans hmeaning
  have hread : (shape.read? line.toList).isSome = true := by rw [read?_of_spells h]; rfl
  rw [classify, trim, strip_of_spells h]
  refine commandIn_of_spells h hbuild (fun ht => hs ?_) fun hr => hs ?_
  · rcases (read?_isSome_showTasks ht).1 hread with rfl | rfl <;> simp
  · rcases (read?_isSome_showResponse hr).1 hread with rfl | rfl <;> simp

end Sentence

/-- A sentence in a shape has the command that the shape gives to what is written in its slots, and
the sentence without the blanks around it is its line. Two sentences only have the command of an
earlier shape. -/
theorem sentence_classified {shape : Shape} {fillings : List Filling} {s : List Char}
    (before after : List Char) (h : shape.Spells fillings s)
    (hb : ∀ c ∈ before, isBlank c = true) (ha : ∀ c ∈ after, isBlank c = true) :
    ∃ command, shape.meaning fillings = some command ∧
      Sentence.classify (String.ofList (before ++ (s ++ after))) = ⟨String.ofList s,
        if shape = .showVariable ∧ s.map Char.toLower = "show tasks".toList then .showTasks
        else if shape = .showResponse ∧ s.map Char.toLower = "show response".toList then
          .showVariable (String.ofList (s.drop 5))
        else command⟩ := by
  obtain ⟨command, hmeaning, hbuild⟩ := Shape.exists_meaning h
  refine ⟨command, hmeaning, ?_⟩
  have hstrip : strip (before ++ (s ++ after)) = s := by
    rw [strip_blanks_append hb, strip_append_blanks ha, Shape.strip_of_spells h]
  rw [Sentence.classify, trim, String.toList_ofList, hstrip]
  congr 1
  have hread : (shape.read? s).isSome = true := by rw [Shape.read?_of_spells h]; rfl
  by_cases htasks : s.map fold = "show tasks".toList
  · rw [Sentence.commandIn_showTasks htasks]
    rcases (Shape.read?_isSome_showTasks htasks).1 hread with rfl | rfl
    · cases hbuild
      rfl
    · rw [Shape.map_fold_of_spells h (by decide)] at htasks
      rw [if_pos ⟨rfl, htasks⟩]
  by_cases hresponse : s.map fold = "show response".toList
  · rw [Sentence.commandIn_showResponse hresponse]
    rcases (Shape.read?_isSome_showResponse hresponse).1 hread with rfl | rfl
    · have hcaptures := (Shape.read?_of_spells h).symm.trans (Shape.read?_shown_response hresponse)
      rw [Option.some.inj hcaptures] at hbuild
      cases hbuild
      rw [if_neg, if_neg]
      · rintro ⟨hs, -⟩
        cases hs
      · rintro ⟨-, hs⟩
        rw [← Shape.map_fold_of_spells h (by decide), hresponse] at hs
        cases hs
    · rw [Shape.map_fold_of_spells h (by decide)] at hresponse
      rw [if_neg, if_pos ⟨rfl, hresponse⟩]
      rintro ⟨hs, -⟩
      cases hs
  · rw [Sentence.commandIn_of_spells h hbuild htasks hresponse, if_neg, if_neg]
    · rintro ⟨rfl, hs⟩
      exact hresponse (by rwa [Shape.map_fold_of_spells h (by decide)])
    · rintro ⟨rfl, hs⟩
      exact htasks (by rwa [Shape.map_fold_of_spells h (by decide)])

/-- A text that is a sentence itself is kept as it is written, and blanks around the outer sentence
are not. Numbers are the nearest to what is written, and a comparison keeps the letters of its
words. -/
theorem sentence_classified_sentence_quoted :
    Sentence.classify "\t CREATE Text called _x9 with value \"Add 1 to X\" \n" =
        ⟨"CREATE Text called _x9 with value \"Add 1 to X\"", .createText "_x9" "Add 1 to X"⟩ ∧
      Sentence.classify "Show TASKS" = ⟨"Show TASKS", .showTasks⟩ ∧
      Sentence.classify "subtract 0.10 FROM x" = ⟨"subtract 0.10 FROM x", .subtract 0.1 "x"⟩ ∧
      Sentence.classify "While x is Less Than -3.5" =
        ⟨"While x is Less Than -3.5", .whileLoop "x" .below "Less Than" (-3.5)⟩ := by
  let x : Identifier := ⟨'x', [], .inl rfl, List.forall_mem_nil _⟩
  refine ⟨?_, ?_, ?_, ?_⟩
  · have hrest : "x9".toList.all Char.isAlphanum = true := rfl
    let name : Identifier :=
      ⟨'_', "x9".toList, .inr rfl, fun c hc => .inl (List.all_eq_true.1 hrest c hc)⟩
    let value : Quotation := ⟨"Add 1 to X".toList, by decide⟩
    have h : Shape.createText.Spells [.name name, .quoted value] _ :=
      ⟨_, List.mem_singleton.2 rfl, .words "create " "CREATE ".toList (by decide) rfl <|
        .words "" [] (by decide) rfl <| .words "text" "Text".toList (by decide) rfl <|
        .words " called " " called ".toList (by decide) rfl <| .slot (.name name) <|
        .words " with value " " with value ".toList (by decide) rfl <| .slot (.quoted value) .nil⟩
    obtain ⟨command, hm, hc⟩ := sentence_classified "\t ".toList " \n".toList h
      (List.all_eq_true.1 rfl) (List.all_eq_true.1 rfl)
    cases hm
    exact hc
  · have hrest : "ASKS".toList.all Char.isAlphanum = true := rfl
    let name : Identifier :=
      ⟨'T', "ASKS".toList, .inl rfl, fun c hc => .inl (List.all_eq_true.1 hrest c hc)⟩
    have h : Shape.showVariable.Spells [.name name] _ :=
      ⟨_, List.mem_singleton.2 rfl, .words "show " "Show ".toList (by decide) rfl <|
        .slot (.name name) .nil⟩
    obtain ⟨command, -, hc⟩ := sentence_classified [] [] h (List.forall_mem_nil _)
      (List.forall_mem_nil _)
    exact hc
  · let amount : Literal := ⟨false, ['0'], ['1', '0'], by simp, by simp⟩
    have hamount : amount.value = 0.1 := by decide +kernel
    have h : Shape.subtract.Spells [.number amount, .name x] _ :=
      ⟨_, List.mem_singleton.2 rfl, .words "subtract " "subtract ".toList (by decide) rfl <|
        .slot (.number amount) <| .words " from " " FROM ".toList (by decide) rfl <|
        .slot (.name x) .nil⟩
    obtain ⟨command, hm, hc⟩ := sentence_classified [] [] h (List.forall_mem_nil _)
      (List.forall_mem_nil _)
    rw [← hamount]
    cases hm
    exact hc
  · let phrase : Phrase := ⟨"Less Than".toList, .below, by decide⟩
    let bound : Literal := ⟨true, ['3'], ['5'], by simp, by simp⟩
    have hbound : bound.value = -3.5 := by decide +kernel
    have h : Shape.whileLoop.Spells [.name x, .phrase phrase, .number bound] _ :=
      ⟨_, List.mem_singleton.2 rfl, .words "while " "While ".toList (by decide) rfl <|
        .slot (.name x) <| .words " is " " is ".toList (by decide) rfl <|
        .slot (.phrase phrase) <| .words " " " ".toList (by decide) rfl <|
        .slot (.number bound) .nil⟩
    obtain ⟨command, hm, hc⟩ := sentence_classified [] [] h (List.forall_mem_nil _)
      (List.forall_mem_nil _)
    rw [← hbound]
    cases hm
    exact hc

end SentenceScript
