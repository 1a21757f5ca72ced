import SentenceScript.Proofs.WrittenSentences

namespace SentenceScript

open Text

namespace Text

theorem dropBlanksEnd_isPrefix (s : List Char) : dropBlanksEnd s <+: s := by
  rw [← List.reverse_suffix, dropBlanksEnd, List.reverse_reverse]
  exact List.dropWhile_suffix _

theorem strip_infix (s : List Char) : strip s <:+: s :=
  (dropBlanksEnd_isPrefix _).isInfix.trans (List.dropWhile_suffix _).isInfix

theorem strip_last (s : List Char) : ∀ c ∈ (strip s).getLast?, isBlank c = false := by
  rw [strip, dropBlanksEnd, List.getLast?_reverse]
  exact dropBlanks_head _

end Text

namespace Slot

variable {s yes no : List Char}

/-- More text in front belongs to the first clause, and more text behind to the second. -/
theorem Parted.extend (h : Parted s yes no) (front back : List Char) :
    Parted (front ++ (s ++ back)) (front ++ yes) (no ++ back) := by
  obtain ⟨hy, hn, rest, rfl, before, word, after, hb, hw, ha, rfl⟩ := h
  refine ⟨List.append_ne_nil_of_right_ne_nil _ hy, List.append_ne_nil_of_left_ne_nil hn _, ?_⟩
  refine ⟨before ++ (word ++ (after ++ (no ++ back))), by simp, before, word, after, hb, hw, ha, rfl⟩

theorem Parted.length_lt (h : Parted s yes no) : yes.length < s.length := by
  obtain ⟨-, hn, rest, rfl, before, word, after, -, -, -, rfl⟩ := h
  have := List.length_pos_of_ne_nil hn
  simp only [List.length_append]
  omega

theorem exists_divided (h : Parted s yes no) (hs : '\n' ∉ s) : ∃ y n, Divided s y n := by
  obtain ⟨hy, hn⟩ := h.one_row hs
  obtain ⟨y, n, hsplit, -⟩ := splitClauses_least h hy hn
  have htake : takeClauses s = some ([y, n], []) := by
    rw [takeClauses, hsplit]
    rfl
  cases (accepts_of_takeClauses htake).2 with
  | clauses hd => exact ⟨y, n, hd⟩

theorem Divided.shortest (h : Divided s yes no) (hs : '\n' ∉ s) {a b : List Char}
    (hp : Parted s a b) : yes.length ≤ a.length := by
  obtain ⟨ha, hb⟩ := hp.one_row hs
  rcases h.least a b hp ha hb with hlt | ⟨rfl, -⟩
  · exact hlt.le
  · exact Nat.le_refl _

/-- The first clause is not two clauses itself. -/
theorem Divided.not_parted (h : Divided s yes no) (hs : '\n' ∉ s) (a b : List Char) :
    ¬ Parted yes a b := by
  intro hp
  obtain ⟨more, hmore, -⟩ := h.joined
  have hwhole : Parted s a (b ++ more) := by
    rw [hmore]
    exact hp.extend [] more
  have hle := h.shortest hs hwhole
  have hlt := hp.length_lt
  omega

/-- The second clause takes none of the blanks before it, where the text ends with no blank. -/
theorem Divided.head_not_blank (h : Divided s yes no) (hs : ∀ c ∈ s.getLast?, isBlank c = false) :
    ∀ c ∈ no.head?, isBlank c = false := by
  obtain ⟨rest, rfl, before, word, after, hb, hw, ha, rfl⟩ := h.joined
  cases no with
  | nil => exact absurd rfl h.no_ne_nil
  | cons d no =>
      rintro _ ⟨⟩
      by_contra hblank
      rw [Bool.not_eq_false] at hblank
      by_cases hne : no = []
      · subst hne
        have hlast := hs d (by simp)
        rw [hblank] at hlast
        cases hlast
      · have hafter : IsBlanks (after ++ [d]) := by
          refine ⟨by simp, fun c hc => ?_⟩
          rcases List.mem_append.1 hc with hc | hc
          · exact ha.blank c hc
          · cases List.mem_singleton.1 hc
            exact hblank
        have hp : Parted (yes ++ (before ++ (word ++ (after ++ d :: no)))) yes no :=
          ⟨h.yes_ne_nil, hne, _, rfl, before, word, after ++ [d], hb, hw, hafter, by simp⟩
        have hrow : '\n' ∉ no := fun hm => h.no_row (List.mem_cons_of_mem _ hm)
        rcases h.least yes no hp h.yes_row hrow with hlt | ⟨-, hle⟩
        · exact Nat.lt_irrefl _ hlt
        · exact Nat.not_succ_le_self _ hle

end Slot

theorem Form.Matches.append_inv {f g : Form} {s : List Char} {captures : List (List Char)}
    (h : Form.Matches (f ++ g) s captures) :
    ∃ front back taken more, s = front ++ back ∧ captures = taken ++ more ∧
      f.Matches front taken ∧ g.Matches back more := by
  induction f generalizing s captures with
  | nil => exact ⟨[], s, [], captures, rfl, rfl, .nil, h⟩
  | cons piece f ih =>
      cases h with
      | words w letters hw hl h =>
          obtain ⟨front, back, taken, more, rfl, rfl, hf, hg⟩ := ih h
          exact ⟨letters ++ front, back, taken, more, by simp, rfl, .words w letters hw hl hf, hg⟩
      | slot ht h =>
          obtain ⟨front, back, taken, more, rfl, rfl, hf, hg⟩ := ih h
          exact ⟨_ ++ front, back, _ ++ taken, more, by simp, by simp, .slot ht hf, hg⟩

/-- Every slot but that of the clauses captures one text. -/
theorem Form.Matches.length_eq {form : Form} {s : List Char} {captures : List (List Char)}
    (h : form.Matches s captures) (hc : .clauses ∉ form.slots) :
    captures.length = form.slots.length := by
  induction h with
  | nil => rfl
  | words w letters hw hl h ih => exact ih hc
  | @slot kind form text rest taken captures ht h ih =>
      rw [Form.slots, List.mem_cons, not_or] at hc
      have hone : taken.length = 1 := by
        cases ht with
        | name | number | count | quoted | phrase | remark => rfl
        | clause | clauses => exact absurd rfl hc.1
      rw [List.length_append, hone, ih hc.2, Form.slots, List.length_cons, Nat.add_comm]

/-- The right side of a condition as written. -/
inductive WrittenOperand where
  | number (x : Literal)
  | name (chars : List Char) (h : Slot.IsName chars)

namespace WrittenOperand

def chars : WrittenOperand → List Char
  | number x => x.chars
  | name n _ => n

def operand : WrittenOperand → Operand
  | number x => .literal x.value
  | name n _ => .named (String.ofList n)

def slot : WrittenOperand → Slot
  | number _ => .number
  | name .. => .name

def shape : WrittenOperand → Shape
  | number _ => .ifNumber
  | name .. => .ifVariable

end WrittenOperand

/-- The head of a conditional as written, up to the blank behind its comma. Its two words are in
any letters that fold onto them. -/
structure WrittenCondition where
  opening : List Char
  subject : List Char
  copula : List Char
  phrase : Phrase
  operand : WrittenOperand
  opening_fold : opening.map fold = "if ".toList
  subject_name : Slot.IsName subject
  copula_fold : copula.map fold = " is ".toList

namespace WrittenCondition

def chars (c : WrittenCondition) : List Char :=
  c.opening ++ (c.subject ++ (c.copula ++ (c.phrase.chars ++
    (" ".toList ++ (c.operand.chars ++ ", ".toList)))))

def condition (c : WrittenCondition) : Condition :=
  ⟨String.ofList c.subject, c.phrase.comparison, c.operand.operand⟩

variable (c : WrittenCondition) {rest yes : List Char} (no : Option (List Char))

theorem matches_line {captures : List (List Char)} (h : Slot.clauses.Accepts rest captures) :
    c.operand.shape.Matches (c.chars ++ rest)
      (c.subject :: c.phrase.chars :: c.operand.chars :: captures) := by
  have hoperand : c.operand.slot.Accepts c.operand.chars [c.operand.chars] := by
    cases c.operand with
    | number x => exact .number x
    | name n h => exact .name h
  have hline := Form.Matches.words "if " c.opening (List.mem_singleton_self _) c.opening_fold <|
    .slot (.name c.subject_name) <|
    .words " is " c.copula (List.mem_singleton_self _) c.copula_fold <|
    .slot (.phrase c.phrase.named c.phrase.map_fold) <|
    .words " " " ".toList (List.mem_singleton_self _) rfl <|
    .slot hoperand <|
    .words ", " ", ".toList (List.mem_singleton_self _) rfl <|
    .slot h .nil
  refine ⟨Shape.text "if " :: Shape.condition c.operand.slot ++
    [Shape.text ", ", Shape.gap .clauses], ?_, ?_⟩
  · cases c.operand with
    | number x => exact List.mem_singleton_self _
    | name n h => exact List.mem_singleton_self _
  · simpa [chars, Shape.text, Shape.condition, Shape.gap] using hline

theorem build?_eq : Sentence.build? c.operand.shape
    (c.subject :: c.phrase.chars :: c.operand.chars :: yes :: no.toList) =
      some (.conditional c.condition (String.ofList yes) (no.map String.ofList)) := by
  have hbuild : Sentence.conditional? c.subject c.phrase.chars (some c.operand.operand) yes no =
      some (.conditional c.condition (String.ofList yes) (no.map String.ofList)) := by
    rw [Sentence.conditional?, c.phrase.comparison?_eq]
    rfl
  rw [← hbuild]
  cases c.operand with
  | name n h => cases no <;> rfl
  | number x =>
      have hnumber : Sentence.number? x.chars = some x.value := x.isNumeral.value_eq
      change _ = Sentence.conditional? _ _ ((some x.value).map .literal) _ _
      rw [← hnumber]
      cases no <;> rfl

theorem classify_eq {line : String} (hl : (trim line).toList = c.chars ++ rest)
    (h : Slot.clauses.Accepts rest (yes :: no.toList)) :
    (Sentence.classify line).command =
      .conditional c.condition (String.ofList yes) (no.map String.ofList) := by
  have hshape : c.operand.shape ∉ [Shape.showTasks, .showVariable, .showResponse] := by
    cases c.operand <;> simp [WrittenOperand.shape]
  rw [trim, String.toList_ofList] at hl
  rw [Sentence.classify, hl,
    Sentence.commandIn_of_matches (c.matches_line h) hshape, build?_eq, Option.getD_some]

theorem classify_cases {line : String} (hl : (trim line).toList = c.chars ++ rest)
    (hrow : IsRow rest) :
    (∃ yes no, Slot.Divided rest yes no ∧ (Sentence.classify line).command =
        .conditional c.condition (String.ofList yes) (some (String.ofList no))) ∨
      ((∀ yes no, ¬ Slot.Parted rest yes no) ∧
        (Sentence.classify line).command = .conditional c.condition (String.ofList rest) none) := by
  by_cases hp : ∃ yes no, Slot.Parted rest yes no
  · obtain ⟨a, b, hp⟩ := hp
    obtain ⟨yes, no, hd⟩ := Slot.exists_divided hp hrow.one_row
    exact .inl ⟨yes, no, hd, c.classify_eq (some no) hl (.clauses hd)⟩
  · have hp : ∀ yes no, ¬ Slot.Parted rest yes no := fun yes no h => hp ⟨yes, no, h⟩
    exact .inr ⟨hp, c.classify_eq none hl (.clause hrow hp)⟩

end WrittenCondition

namespace Sentence

variable {condition : Condition} {line : String}

theorem build?_clauses {shape : Shape} (hs : shape = .ifNumber ∨ shape = .ifVariable)
    {subject phrase operand first : List Char} (second : Option (List Char)) {yes : String}
    {no : Option String}
    (h : build? shape (subject :: phrase :: operand :: first :: second.toList) =
      some (.conditional condition yes no)) :
    yes = String.ofList first ∧ no = second.map String.ofList := by
  rcases hs with rfl | rfl
  · cases second <;> exact conditional?_eq_some h
  · cases second <;> exact conditional?_eq_some h

/-- A line that is a conditional with two clauses ends with these, parted by `otherwise`. -/
theorem parted_of_conditional {yes no : String}
    (h : (classify line).command = .conditional condition yes (some no)) :
    ∃ front rest, strip line.toList = front ++ rest ∧ Slot.Parted rest yes.toList no.toList := by
  obtain ⟨shape, captures, ⟨form, hf, hm⟩, hb⟩ := exists_of_commandIn h (by simp)
  have hs := (build?_conditional hb).1
  have hform : ∃ operand : Slot, operand ≠ .clauses ∧ form =
      (Shape.text "if " :: Shape.condition operand ++ [Shape.text ", "]) ++ [Shape.gap .clauses] := by
    rcases hs with rfl | rfl
    · exact ⟨.number, by simp, List.mem_singleton.1 hf⟩
    · exact ⟨.name, by simp, List.mem_singleton.1 hf⟩
  obtain ⟨operand, ho, rfl⟩ := hform
  obtain ⟨front, rest, taken, more, hline, rfl, hhead, hlast⟩ := hm.append_inv
  have hlength : taken.length = 3 := by
    apply hhead.length_eq
    change .clauses ∉ [.name, .phrase, operand]
    simpa using Ne.symm ho
  obtain ⟨subject, phrase, x, rfl⟩ := List.length_eq_three.1 hlength
  cases hlast with
  | @slot _ _ text _ group _ ht hnil =>
      cases hnil
      rw [List.append_nil] at hline hb
      refine ⟨front, text, hline, ?_⟩
      cases ht with
      | clause hrow hp =>
          have hc := build?_clauses hs none hb
          cases hc.2
      | @clauses _ first second hd =>
          have hc := build?_clauses hs (some second) hb
          rw [hc.1, Option.some.inj hc.2, String.toList_ofList, String.toList_ofList]
          exact hd.toParted

/-- A text is parted if a conditional with two clauses is in it and nothing else but blanks. -/
theorem exists_parted {yes no : String}
    (h : (classify line).command = .conditional condition yes (some no)) :
    ∃ a b, Slot.Parted line.toList a b := by
  obtain ⟨front, rest, hs, hp⟩ := parted_of_conditional h
  obtain ⟨left, right, hline⟩ := strip_infix line.toList
  have hwhole := hp.extend (left ++ front) right
  have heq : left ++ front ++ (rest ++ right) = line.toList := by
    rw [← hline, hs]
    simp
  rw [heq] at hwhole
  exact ⟨_, _, hwhole⟩

end Sentence

/-- A conditional is cut at the first `otherwise` that has a clause before and behind it; where there
is none, all of the rest is one clause. So a conditional that is the first clause of another has no
second clause of its own. -/
theorem conditional_division (c : WrittenCondition) {line : String} {rest : List Char}
    (hl : (trim line).toList = c.chars ++ rest) (hne : rest ≠ []) (hrow : '\n' ∉ rest) :
    ((∃ yes no, Slot.Parted rest yes no ∧
        (∀ yes' no', Slot.Parted rest yes' no' → yes.length ≤ yes'.length) ∧
        (∀ d ∈ no.head?, isBlank d = false) ∧ (∀ d ∈ no.getLast?, isBlank d = false) ∧
        (Sentence.classify line).command =
          .conditional c.condition (String.ofList yes) (some (String.ofList no))) ∨
      ((∀ yes no, ¬ Slot.Parted rest yes no) ∧
        (Sentence.classify line).command = .conditional c.condition (String.ofList rest) none)) ∧
    ∀ condition yes no, (Sentence.classify line).command = .conditional condition yes no →
      ∀ inner yes' no', (Sentence.classify yes).command = .conditional inner yes' no' →
        no' = none := by
  have hcases := c.classify_cases hl ⟨hne, hrow⟩
  have hlast : ∀ d ∈ rest.getLast?, isBlank d = false := by
    have h := strip_last line.toList
    rwa [← String.toList_ofList (l := strip line.toList), ← trim, hl,
      List.getLast?_append_of_ne_nil _ hne] at h
  constructor
  · refine hcases.imp_left ?_
    rintro ⟨yes, no, hd, hc⟩
    refine ⟨yes, no, hd.toParted, fun yes' no' hp => hd.shortest hrow hp,
      hd.head_not_blank hlast, ?_, hc⟩
    obtain ⟨front, hfront⟩ := hd.suffix
    rwa [← hfront, List.getLast?_append_of_ne_nil _ hd.no_ne_nil] at hlast
  · intro condition yes no hc inner yes' no' hi
    cases no' with
    | none => rfl
    | some no' =>
        obtain ⟨a, b, hp⟩ := Sentence.exists_parted hi
        rcases hcases with ⟨y, n, hd, hy⟩ | ⟨hnone, hy⟩
        · cases hy.symm.trans hc
          rw [String.toList_ofList] at hp
          exact absurd hp (hd.not_parted hrow a b)
        · cases hy.symm.trans hc
          rw [String.toList_ofList] at hp
          exact absurd hp (hnone a b)

/-- The word is found in other letters and between several blanks, and the conditional inside has no
part in it. -/
theorem conditional_division_nested :
    let line := " IF x is Above -3.5, if y is below z, show x  otherWI\u017fE  show y otherwise end"
    (Sentence.classify line).command = .conditional ⟨"x", .above, .literal (-3.5)⟩
        "if y is below z, show x" (some "show y otherwise end") ∧
      ∀ inner yes no, (Sentence.classify "if y is below z, show x").command =
        .conditional inner yes no → no = none := by
  intro line
  let value : Literal := ⟨true, ['3'], ['5'], by simp, by simp⟩
  have hvalue : value.value = -3.5 := by decide +kernel
  let c : WrittenCondition :=
    { opening := "IF ".toList
      subject := ['x']
      copula := " is ".toList
      phrase := ⟨"Above".toList, .above, by decide⟩
      operand := .number value
      opening_fold := rfl
      subject_name := ⟨'x', [], rfl, rfl, List.forall_mem_nil _⟩
      copula_fold := rfl }
  let rest := "if y is below z, show x  otherWI\u017fE  show y otherwise end".toList
  have hl : (trim line).toList = c.chars ++ rest := by decide +kernel
  have htake : Slot.takeClauses rest =
      some (["if y is below z, show x".toList, "show y otherwise end".toList], []) := by
    decide +kernel
  have hcommand := c.classify_eq (some "show y otherwise end".toList) hl
    (Slot.accepts_of_takeClauses htake).2
  rw [String.ofList_toList, Option.map_some, String.ofList_toList] at hcommand
  have hdivision := conditional_division c hl (by decide) (by decide +kernel)
  rw [← hvalue]
  exact ⟨hcommand, hdivision.2 _ _ _ hcommand⟩

end SentenceScript
