import SentenceScript.Proofs.UnknownLines

namespace SentenceScript

open Text Decimal

namespace Text

/-- A text with its ASCII letters in small case. -/
def lower (s : List Char) : List Char := s.map Char.toLower

theorem eq_of_toLower {P : Char → Prop} (hascii : ∀ n < 128, P (Char.ofNat n))
    (hother : ∀ c : Char, c.toLower = c → P c) (c : Char) : P c := by
  by_cases hc : c.toNat < 128
  · exact ascii_forall hascii hc
  · exact hother c (toLower_of_not_ascii (Nat.le_of_not_lt hc))

theorem fold_toLower (c : Char) : fold c.toLower = fold c :=
  eq_of_toLower (P := fun c => fold c.toLower = fold c) (by decide) (fun c h => by rw [h]) c

theorem isDigit_toLower (c : Char) : c.toLower.isDigit = c.isDigit :=
  eq_of_toLower (P := fun c => c.toLower.isDigit = c.isDigit) (by decide) (fun c h => by rw [h]) c

theorem toLower_of_isDigit {c : Char} (h : c.isDigit = true) : c.toLower = c :=
  eq_of_toLower (P := fun c => c.isDigit = true → c.toLower = c) (by decide) (fun _ h _ => h) c h

theorem toLower_toLower (c : Char) : c.toLower.toLower = c.toLower :=
  eq_of_toLower (P := fun c => c.toLower.toLower = c.toLower) (by decide) (fun c h => by rw [h, h]) c

theorem beq_toLower {d : Char} (hd : d.isAlpha = false) (c : Char) : (c.toLower == d) = (c == d) := by
  rw [Bool.eq_iff_iff, beq_iff_eq, beq_iff_eq, toLower_eq_iff hd]

theorem isNameStart_toLower (c : Char) : isNameStart c.toLower = isNameStart c := by
  rw [isNameStart, isNameStart, fold_toLower, beq_toLower rfl]

theorem isNamePart_toLower (c : Char) : isNamePart c.toLower = isNamePart c := by
  rw [isNamePart, isNamePart, isNameStart_toLower, isDigit_toLower]

theorem lower_cons (c : Char) (s : List Char) : lower (c :: s) = c.toLower :: lower s := rfl

theorem lower_mark {d : Char} (hd : d.isAlpha = false) (s : List Char) :
    lower (d :: s) = d :: lower s := by
  rw [lower_cons, (toLower_eq_iff hd).2 rfl]

theorem toLower_ne {c d : Char} (hd : d.isAlpha = false) (h : c ≠ d) : c.toLower ≠ d :=
  mt (toLower_eq_iff hd).1 h

theorem lower_lower (s : List Char) : lower (lower s) = lower s := by
  rw [lower, lower, List.map_map]
  exact List.map_congr_left fun c _ => toLower_toLower c

theorem map_fold_lower (s : List Char) : (lower s).map fold = s.map fold := by
  rw [lower, List.map_map]
  exact List.map_congr_left fun c _ => fold_toLower c

theorem isEmpty_lower (s : List Char) : (lower s).isEmpty = s.isEmpty := by
  cases s <;> rfl

theorem contains_lower {d : Char} (hd : d.isAlpha = false) (s : List Char) :
    (lower s).contains d = s.contains d := by
  induction s with
  | nil => rfl
  | cons c s ih =>
      rw [lower_cons, List.contains_cons, List.contains_cons, ih]
      congr 1
      rw [Bool.eq_iff_iff, beq_iff_eq, beq_iff_eq, eq_comm, toLower_eq_iff hd, eq_comm]

section Row

variable {p : Char → Bool} (hp : ∀ c, p c.toLower = p c) (s : List Char)

include hp

theorem takeWhile_lower : (lower s).takeWhile p = lower (s.takeWhile p) := by
  rw [lower, List.takeWhile_map, lower]
  congr 2
  funext c
  exact hp c

theorem dropWhile_lower : (lower s).dropWhile p = lower (s.dropWhile p) := by
  rw [lower, List.dropWhile_map, lower]
  congr 2
  funext c
  exact hp c

end Row

theorem lower_of_digits (h : ∀ c ∈ s, c.isDigit = true) : lower s = s :=
  (List.map_congr_left fun c hc => toLower_of_isDigit (h c hc)).trans (List.map_id s)

theorem dropBlanks_lower (s : List Char) : dropBlanks (lower s) = lower (dropBlanks s) :=
  dropWhile_lower isBlank_toLower s

theorem strip_lower (s : List Char) : strip (lower s) = lower (strip s) := by
  have hreverse (t : List Char) : (lower t).reverse = lower t.reverse := List.map_reverse.symm
  rw [strip, dropBlanks_lower, dropBlanksEnd, hreverse, dropBlanks_lower, hreverse]
  rfl

theorem eat?_lower (w s : List Char) : eat? w (lower s) = (eat? w s).map lower := by
  induction w generalizing s with
  | nil => rfl
  | cons a w ih =>
      cases s with
      | nil => rfl
      | cons c s =>
          rw [lower_cons, eat?, eat?, fold_toLower, ih]
          split <;> rfl

end Text

namespace Slot

/-- What is taken from a text, in small letters. -/
def Taken.lower (t : Taken) : Taken := t.map fun x => (x.1.map Text.lower, Text.lower x.2)

theorem takeName_lower (s : List Char) : takeName (lower s) = (takeName s).lower := by
  cases s with
  | nil => rfl
  | cons c s =>
      rw [lower_cons, takeName, takeName, isNameStart_toLower,
        takeWhile_lower isNamePart_toLower, dropWhile_lower isNamePart_toLower]
      split <;> rfl

theorem takeCount_lower (s : List Char) : takeCount (lower s) = (takeCount s).lower := by
  rw [takeCount, takeCount, takeWhile_lower isDigit_toLower, dropWhile_lower isDigit_toLower,
    isEmpty_lower]
  split <;> rfl

theorem takeUnsigned_lower (s : List Char) :
    takeUnsigned (lower s) = (takeUnsigned s).map fun x => (lower x.1, lower x.2) := by
  rw [takeUnsigned, takeUnsigned, takeWhile_lower isDigit_toLower, dropWhile_lower isDigit_toLower,
    isEmpty_lower]
  split
  · rfl
  · cases s.dropWhile Char.isDigit with
    | nil => rfl
    | cons c r =>
        by_cases hc : c = '.'
        · subst hc
          simp only [lower_mark (d := '.') rfl, takeWhile_lower isDigit_toLower,
            dropWhile_lower isDigit_toLower, isEmpty_lower]
          split
          · rfl
          · simp [lower]
        · have hc' : c.toLower ≠ '.' := toLower_ne rfl hc
          rw [lower_cons]
          split
          · next heq => exact absurd (List.cons.inj heq).1 hc'
          · split
            · next heq => exact absurd (List.cons.inj heq).1 hc
            · rfl

theorem takeNumber_lower (s : List Char) : takeNumber (lower s) = (takeNumber s).lower := by
  cases s with
  | nil => rfl
  | cons c s =>
      by_cases hc : c = '-'
      · subst hc
        change (takeUnsigned (lower s)).map _ = Taken.lower ((takeUnsigned s).map _)
        rw [takeUnsigned_lower]
        cases takeUnsigned s <;> rfl
      · have hc' : c.toLower ≠ '-' := toLower_ne rfl hc
        rw [takeNumber.eq_def, takeNumber.eq_def]
        split
        · next heq => exact absurd (List.cons.inj heq).1 hc'
        · split
          · next heq => exact absurd (List.cons.inj heq).1 hc
          · rw [takeUnsigned_lower]
            cases takeUnsigned (c :: s) <;> rfl

theorem takeQuoted_lower (s : List Char) : takeQuoted (lower s) = (takeQuoted s).lower := by
  have hquote : ∀ c : Char, (c.toLower != '"') = (c != '"') := fun c => by
    rw [bne, bne, beq_toLower rfl]
  cases s with
  | nil => rfl
  | cons c s =>
      by_cases hc : c = '"'
      · subst hc
        rw [lower_mark rfl, takeQuoted, takeQuoted, takeWhile_lower hquote, dropWhile_lower hquote]
        cases s.dropWhile (· != '"') with
        | nil => rfl
        | cons d r =>
            by_cases hd : d = '"'
            · subst hd
              rfl
            · have hd' : d.toLower ≠ '"' := toLower_ne rfl hd
              split
              · next heq => exact absurd (List.cons.inj heq).1 hd'
              · split
                · next heq => exact absurd (List.cons.inj heq).1 hd
                · rfl
      · have hc' : c.toLower ≠ '"' := toLower_ne rfl hc
        rw [takeQuoted.eq_def, takeQuoted.eq_def]
        split
        · next heq => exact absurd (List.cons.inj heq).1 hc'
        · split
          · next heq => exact absurd (List.cons.inj heq).1 hc
          · rfl

theorem takePhrase_lower (s : List Char) : takePhrase (lower s) = (takePhrase s).lower := by
  rw [takePhrase, takePhrase, Taken.lower, List.map_findSome?]
  congr 1
  funext a
  simp only [Function.comp_apply, eat?_lower, Option.map_map]
  congr 1
  funext r
  simp [lower, List.map_take]

theorem wholeRow?_lower (s : List Char) : wholeRow? (lower s) = (wholeRow? s).map lower := by
  rw [wholeRow?, wholeRow?, isEmpty_lower, contains_lower rfl]
  split <;> rfl

theorem blanksThenRow?_lower (s : List Char) :
    blanksThenRow? (lower s) = (blanksThenRow? s).map lower := by
  induction s with
  | nil => rfl
  | cons c s ih =>
      rw [lower_cons, blanksThenRow?, blanksThenRow?, isBlank_toLower, ih,
        wholeRow?_lower, ← Option.map_or]
      split <;> rfl

theorem otherwise?_lower (s : List Char) : otherwise? (lower s) = (otherwise? s).map lower := by
  cases s with
  | nil => rfl
  | cons c s =>
      rw [lower_cons, otherwise?, otherwise?, isBlank_toLower, dropBlanks_lower,
        eat?_lower]
      split
      · cases eat? "otherwise".toList (dropBlanks s) with
        | none => rfl
        | some r => exact blanksThenRow?_lower r
      · rfl

theorem splitClauses_lower (s : List Char) :
    splitClauses (lower s) = (splitClauses s).map fun x => (lower x.1, x.2.map lower) := by
  induction s with
  | nil => rfl
  | cons c s ih =>
      rw [lower_cons, splitClauses, splitClauses, otherwise?_lower, isEmpty_lower, ih]
      by_cases hc : c = '\n'
      · rw [if_pos hc, if_pos ((toLower_eq_iff rfl).2 hc)]
        rfl
      · rw [if_neg hc, if_neg (toLower_ne rfl hc)]
        cases otherwise? s with
        | some no => rfl
        | none =>
            by_cases hs : s.isEmpty = true
            · simp only [hs, if_true, Option.map_none]
              rfl
            · simp only [hs, Option.map_none]
              cases splitClauses s <;> rfl

theorem takeClauses_lower (s : List Char) : takeClauses (lower s) = (takeClauses s).lower := by
  rw [takeClauses, takeClauses, splitClauses_lower]
  cases h : splitClauses s with
  | none => rfl
  | some x =>
      obtain ⟨yes, no⟩ := x
      cases no <;> rfl

theorem takeRemark_lower (s : List Char) : takeRemark (lower s) = (takeRemark s).lower := by
  rw [takeRemark, takeRemark, dropBlanks_lower, contains_lower rfl]
  split <;> rfl

theorem take_lower (kind : Slot) (s : List Char) : kind.take (lower s) = (kind.take s).lower := by
  cases kind with
  | name => exact takeName_lower s
  | number => exact takeNumber_lower s
  | count => exact takeCount_lower s
  | quoted => exact takeQuoted_lower s
  | phrase => exact takePhrase_lower s
  | clauses => exact takeClauses_lower s
  | remark => exact takeRemark_lower s

end Slot

theorem Form.read?_lower (form : Form) (s : List Char) :
    form.read? (lower s) = (form.read? s).map (·.map lower) := by
  induction form generalizing s with
  | nil =>
      rw [Form.read?, Form.read?, isEmpty_lower]
      split <;> rfl
  | cons piece ps ih =>
      have hpiece : piece.take (lower s) = (piece.take s).lower := by
        cases piece with
        | slot kind => exact kind.take_lower s
        | words choices =>
            have hfind : choices.findSome? (fun w => eat? w.toList (lower s)) =
                (choices.findSome? fun w => eat? w.toList s).map lower := by
              rw [List.map_findSome?]
              congr 1
              funext w
              exact eat?_lower w.toList s
            rw [Piece.take, Piece.take, hfind]
            cases choices.findSome? fun w => eat? w.toList s <;> rfl
      rw [Form.read?, Form.read?, hpiece]
      cases hp : piece.take s with
      | none => rfl
      | some t =>
          simp only [Slot.Taken.lower, Option.map_some, bind, Option.bind_some, ih]
          cases Form.read? ps t.2 with
          | none => rfl
          | some more => simp

theorem Shape.read?_lower (shape : Shape) (s : List Char) :
    shape.read? (lower s) = (shape.read? s).map (·.map lower) := by
  rw [Shape.read?, Shape.read?, List.map_findSome?]
  congr 1
  funext form
  exact form.read?_lower s

namespace Command

/-- The command with each of its texts changed, and nothing else. -/
def mapText (f : String → String) : Command → Command
  | createNumber name value => createNumber (f name) value
  | createText name value => createText (f name) (f value)
  | add amount target => add amount (f target)
  | subtract amount target => subtract amount (f target)
  | multiply target factor => multiply (f target) factor
  | divide target divisor => divide (f target) divisor
  | createTask name status => createTask (f name) (f status)
  | completeTask name => completeTask (f name)
  | showTasks => showTasks
  | showTasksWith status => showTasksWith (f status)
  | conditional ⟨subject, comparison, .literal value⟩ yes no =>
      conditional ⟨f subject, comparison, .literal value⟩ (f yes) (no.map f)
  | conditional ⟨subject, comparison, .named name⟩ yes no =>
      conditional ⟨f subject, comparison, .named (f name)⟩ (f yes) (no.map f)
  | repeatLoop times => repeatLoop times
  | whileLoop subject comparison phrase threshold =>
      whileLoop (f subject) comparison (f phrase) threshold
  | endLoop => endLoop
  | connectApi endpoint => connectApi (f endpoint)
  | search query key => search (f query) (f key)
  | getResponse => getResponse
  | connectServer url protocol => connectServer (f url) (f protocol)
  | disconnectServer url => disconnectServer (f url)
  | sendMessage model systemPrompt (.literal text) =>
      sendMessage (f model) (systemPrompt.map f) (.literal (f text))
  | sendMessage model systemPrompt (.named name) =>
      sendMessage (f model) (systemPrompt.map f) (.named (f name))
  | awaitReply => awaitReply
  | storeReply target => storeReply (f target)
  | measureLength source target => measureLength (f source) (f target)
  | showVariable name => showVariable (f name)
  | showText text => showText (f text)
  | showResponse => showResponse
  | comment text => comment (f text)
  | unknown => unknown

/-- The texts of a command: names, quoted texts, clauses, the phrase of a loop, and remarks. -/
def texts : Command → List String
  | createNumber name _ => [name]
  | createText name value => [name, value]
  | add _ target | subtract _ target | multiply target _ | divide target _ => [target]
  | createTask name status => [name, status]
  | completeTask name => [name]
  | showTasksWith status => [status]
  | conditional ⟨subject, _, .literal _⟩ yes no => subject :: yes :: no.toList
  | conditional ⟨subject, _, .named name⟩ yes no => subject :: name :: yes :: no.toList
  | whileLoop subject _ phrase _ => [subject, phrase]
  | connectApi endpoint => [endpoint]
  | search query key => [query, key]
  | connectServer url protocol => [url, protocol]
  | disconnectServer url => [url]
  | sendMessage model systemPrompt (.literal text) => model :: text :: systemPrompt.toList
  | sendMessage model systemPrompt (.named name) => model :: name :: systemPrompt.toList
  | storeReply target => [target]
  | measureLength source target => [source, target]
  | showVariable name => [name]
  | showText text | comment text => [text]
  | showTasks | repeatLoop _ | endLoop | getResponse | awaitReply | showResponse | unknown => []

theorem texts_mapText (f : String → String) (command : Command) :
    (command.mapText f).texts = command.texts.map f := by
  fun_cases mapText f command <;> simp [texts, Option.toList_map]

theorem shape?_mapText (f : String → String) (command : Command) :
    (command.mapText f).shape? = command.shape? := by
  fun_cases mapText f command <;> simp [shape?]

theorem mapText_mapText (f g : String → String) (command : Command) :
    (command.mapText f).mapText g = command.mapText (g ∘ f) := by
  fun_cases mapText f command <;> simp [mapText]

end Command

namespace Decimal

theorem takeSign_lower (s : List Char) :
    takeSign (lower s) = ((takeSign s).1, lower (takeSign s).2) := by
  cases s with
  | nil => rfl
  | cons c s =>
      by_cases hm : c = '-'
      · subst hm
        rfl
      · by_cases hp : c = '+'
        · subst hp
          rfl
        · have hm' : c.toLower ≠ '-' := toLower_ne rfl hm
          have hp' : c.toLower ≠ '+' := toLower_ne rfl hp
          simp [lower, takeSign, hm, hp, hm', hp']

theorem power?_lower (s : List Char) : power? (lower s) = power? s := by
  have hletter : ∀ c : Char, (c.toLower = 'e' ∨ c.toLower = 'E') ↔ (c = 'e' ∨ c = 'E') := fun c =>
    eq_of_toLower (P := fun c => (c.toLower = 'e' ∨ c.toLower = 'E') ↔ (c = 'e' ∨ c = 'E'))
      (by decide) (fun c h => by rw [h]) c
  cases s with
  | nil => rfl
  | cons c s =>
      have hall : (lower (takeSign s).2).all Char.isDigit = (takeSign s).2.all Char.isDigit := by
        rw [lower, List.all_map]
        congr 1
        funext c
        exact isDigit_toLower c
      simp only [lower_cons, power?, takeSign_lower, hletter, hall]
      by_cases hd : (takeSign s).2.all Char.isDigit = true
      · rw [lower_of_digits (List.all_eq_true.1 hd)]
      · simp [hd]

theorem unsigned?_lower (negative : Bool) (s : List Char) :
    unsigned? negative (lower s) = unsigned? negative s := by
  have hdigits (t : List Char) : (lower t).takeWhile Char.isDigit = t.takeWhile Char.isDigit := by
    rw [takeWhile_lower isDigit_toLower, lower_of_digits fun c hc => List.mem_takeWhile_imp hc]
  rw [unsigned?, unsigned?, hdigits, dropWhile_lower isDigit_toLower]
  cases s.dropWhile Char.isDigit with
  | nil => rfl
  | cons c r =>
      by_cases hc : c = '.'
      · subst hc
        simp only [lower_mark (d := '.') rfl, hdigits, dropWhile_lower isDigit_toLower, power?_lower]
      · have hc' : c.toLower ≠ '.' := toLower_ne rfl hc
        simp only [lower_cons]
        split
        · next heq => exact absurd (List.cons.inj heq).1 hc'
        · rw [← lower_cons, power?_lower]
          symm
          split
          · next heq => exact absurd (List.cons.inj heq).1 hc
          · rfl

theorem read?_lower (s : List Char) : Decimal.read? (lower s) = Decimal.read? s := by
  rw [Decimal.read?, takeSign_lower]
  exact unsigned?_lower _ _

end Decimal

namespace Sentence

variable {shape : Shape} {s : List Char} {captures : List (List Char)}

/-- A text with its ASCII letters in small case. -/
def lowerText (text : String) : String := String.ofList (lower text.toList)

theorem lowerText_ofList (s : List Char) :
    lowerText (String.ofList s) = String.ofList (lower s) := by
  rw [lowerText, String.toList_ofList]

theorem number?_lower (s : List Char) : number? (lower s) = number? s := by
  rw [number?, number?, Decimal.read?_lower]

theorem comparison?_lower (s : List Char) : comparison? (lower s) = comparison? s := by
  have hlower := lower_lower s
  rw [lower] at hlower
  rw [comparison?, comparison?, Comparison.ofPhrase?, Comparison.ofPhrase?, String.toList_ofList,
    String.toList_ofList, hlower]
  rfl

theorem matches_lower (h : shape.Matches s captures) :
    shape.Matches (lower s) (captures.map lower) := by
  rw [← Shape.read?_eq_some_iff] at h ⊢
  rw [Shape.read?_lower, h]
  rfl

theorem digits_of_matches {digits : List Char} (h : Shape.repeatLoop.Matches s [digits]) :
    lower digits = digits := by
  obtain ⟨form, hf, hm⟩ := h
  obtain ⟨groups, hcaptures, hg⟩ := hm.groups
  cases List.mem_singleton.1 hf
  obtain _ | ⟨⟨t, _ | _ | ⟨hne, hd⟩⟩, ⟨⟩⟩ := hg
  cases hcaptures
  exact lower_of_digits hd

theorem unnamed_lower (h : shape.Matches s captures) (hu : Unnamed shape captures) :
    Unnamed shape (captures.map lower) := by
  have hphrase {phrase : List Char} (hp : phrase.map fold = "less than".toList ∧ '\u017f' ∈ phrase) :
      (lower phrase).map fold = "less than".toList ∧ '\u017f' ∈ lower phrase :=
    ⟨(map_fold_lower phrase).trans hp.1, List.mem_map_of_mem hp.2⟩
  rw [Unnamed.eq_def] at hu
  split at hu
  · rw [List.map_singleton, digits_of_matches h]
    exact hu
  · exact hphrase hu
  · exact hphrase hu
  · exact hphrase hu
  · exact absurd hu id

theorem build?_lower (h : shape.Matches s captures) :
    build? shape (captures.map lower) = (build? shape captures).map (·.mapText lowerText) := by
  cases hb : build? shape captures with
  | none =>
      have hu : Unnamed shape captures := (build?_eq_none_iff h).1 hb
      exact (build?_eq_none_iff (matches_lower h)).2 (unnamed_lower h hu)
  | some command =>
      rw [Option.map_some]
      revert command
      rw [build?.eq_def]
      split <;> simp only [conditional?, bind, pure, Option.bind_eq_some_iff, Option.map_eq_some_iff,
        Option.some.injEq, forall_exists_index, and_imp, forall_eq', reduceCtorEq, false_implies,
        implies_true]
      case h_15 digits =>
        rintro _ times ht rfl
        rw [List.map_singleton, digits_of_matches h, build?, ht]
        rfl
      all_goals (intros; subst_vars)
      all_goals simp [build?, conditional?, number?_lower, comparison?_lower, Command.mapText,
        lowerText_ofList, *]

/-- A line in small letters spells the same command, with its texts in small letters. -/
theorem commandIn_lower (s : List Char) :
    commandIn Shape.catalog (lower s) = (commandIn Shape.catalog s).mapText lowerText := by
  have hfind : (Shape.catalog.findSome? fun shape =>
        (shape.read? (lower s)).map fun captures => (shape, captures)) =
      (Shape.catalog.findSome? fun shape =>
        (shape.read? s).map fun captures => (shape, captures)).map fun x => (x.1, x.2.map lower) := by
    rw [List.map_findSome?]
    congr 1
    funext shape
    rw [Function.comp_apply, Shape.read?_lower, Option.map_map, Option.map_map]
    rfl
  rw [commandIn, commandIn, hfind]
  cases hs : Shape.catalog.findSome? fun shape =>
      (shape.read? s).map fun captures => (shape, captures) with
  | none => rfl
  | some x =>
      obtain ⟨a, -, ha⟩ := List.exists_of_findSome?_eq_some hs
      obtain ⟨captures, hread, heq⟩ := Option.map_eq_some_iff.1 ha
      cases heq
      simp only [Option.map_some]
      rw [build?_lower (Shape.read?_eq_some_iff.1 hread)]
      cases build? a captures <;> rfl

/-- All texts of a command are captures. -/
theorem texts_of_build? {command : Command} (h : build? shape captures = some command) :
    command.texts ⊆ captures.map String.ofList := by
  revert command
  rw [build?.eq_def]
  split <;> simp only [conditional?, bind, pure, Option.bind_eq_some_iff, Option.map_eq_some_iff,
    Option.some.injEq, forall_exists_index, and_imp, forall_eq', reduceCtorEq, false_implies,
    implies_true]
  all_goals (intros; subst_vars)
  all_goals simp [Command.texts]

end Sentence

theorem Slot.Accepts.isInfix {kind : Slot} {text : List Char} {captures : List (List Char)}
    (h : kind.Accepts text captures) : ∀ capture ∈ captures, capture <:+: text := by
  cases h with
  | name | number | count | phrase | clause => exact List.forall_mem_singleton.2 List.infix_rfl
  | quoted q => exact List.forall_mem_singleton.2 ⟨['"'], ['"'], rfl⟩
  | remark => exact List.forall_mem_singleton.2 (List.suffix_append _ _).isInfix
  | clauses h =>
      obtain ⟨rest, rfl, -⟩ := h.joined
      refine List.forall_mem_cons.2 ⟨(List.prefix_append _ _).isInfix, ?_⟩
      exact List.forall_mem_singleton.2 h.suffix.isInfix

theorem Form.Matches.isInfix {form : Form} {s : List Char} {captures : List (List Char)}
    (h : form.Matches s captures) : ∀ capture ∈ captures, capture <:+: s := by
  induction h with
  | nil => exact List.forall_mem_nil _
  | words w letters hw hl h ih =>
      intro capture hc
      exact (ih capture hc).trans (List.suffix_append _ _).isInfix
  | slot ht h ih =>
      intro capture hc
      rcases List.mem_append.1 hc with hc | hc
      · exact (ht.isInfix capture hc).trans (List.prefix_append _ _).isInfix
      · exact (ih capture hc).trans (List.suffix_append _ _).isInfix

namespace Sentence

/-- Each text of a command stands in the line as it is. -/
theorem texts_infix (s : List Char) :
    ∀ text ∈ (commandIn Shape.catalog s).texts, text.toList <:+: s := by
  intro text ht
  have hne : commandIn Shape.catalog s ≠ .unknown := by
    intro h
    rw [h] at ht
    cases ht
  obtain ⟨shape, captures, ⟨form, -, hm⟩, hb⟩ := exists_of_commandIn rfl hne
  obtain ⟨capture, hc, rfl⟩ := List.mem_map.1 (texts_of_build? hb ht)
  rw [String.toList_ofList]
  exact hm.isInfix capture hc

end Sentence

/-- Two texts that differ at most in the case of their ASCII letters. -/
def EqUpToCase (a b : String) : Prop := lower a.toList = lower b.toList

namespace EqUpToCase

variable {a b : String}

theorem length_eq (h : EqUpToCase a b) : a.length = b.length := by
  have hlen := congrArg List.length h
  rwa [lower, lower, List.length_map, List.length_map, String.length_toList,
    String.length_toList] at hlen

theorem trim (h : EqUpToCase a b) : EqUpToCase (trim a) (trim b) := by
  rw [EqUpToCase, Text.trim, Text.trim, String.toList_ofList, String.toList_ofList, ← strip_lower,
    ← strip_lower, h]

theorem fits (h : EqUpToCase a b) (shape : Shape) : shape.fits a = shape.fits b := by
  have hfits (text : String) : shape.fits text = (shape.read? (lower text.toList)).isSome := by
    rw [Shape.fits, Shape.read?_lower, Option.isSome_map]
  rw [hfits, hfits, h]

theorem mapText (h : EqUpToCase a b) :
    (Sentence.classify a).command.mapText Sentence.lowerText =
      (Sentence.classify b).command.mapText Sentence.lowerText := by
  rw [Sentence.classify, Sentence.classify, ← Sentence.commandIn_lower, ← Sentence.commandIn_lower,
    ← strip_lower, ← strip_lower, h]

end EqUpToCase

theorem eqUpToCase_iff {a b : String} :
    EqUpToCase a b ↔ Sentence.lowerText a = Sentence.lowerText b :=
  String.ofList_inj.symm

/-- Two lines that differ only in the case of their letters have the same shapes and spell the same
command up to its texts, and these differ only in the case of their letters. The texts of every
command stand in its line unchanged. -/
theorem letter_case_ignored :
    (∀ a b : String, EqUpToCase a b →
      (∀ shape : Shape, shape.fits a = shape.fits b ∧ shape.fits (trim a) = shape.fits (trim b)) ∧
      (Sentence.classify a).command.shape? = (Sentence.classify b).command.shape? ∧
      ((Sentence.classify a).command.mapText fun _ => "") =
        ((Sentence.classify b).command.mapText fun _ => "") ∧
      List.Forall₂ (fun t u => t.length = u.length ∧ EqUpToCase t u)
        (Sentence.classify a).command.texts (Sentence.classify b).command.texts) ∧
    ∀ line : String, ∀ text ∈ (Sentence.classify line).command.texts,
      text.toList <:+: (trim line).toList := by
  refine ⟨fun a b h => ⟨fun shape => ⟨h.fits shape, h.trim.fits shape⟩, ?_, ?_, ?_⟩,
    fun line text ht => ?_⟩
  · have hshape := congrArg Command.shape? h.mapText
    rwa [Command.shape?_mapText, Command.shape?_mapText] at hshape
  · have hrest := congrArg (Command.mapText fun _ => "") h.mapText
    rwa [Command.mapText_mapText, Command.mapText_mapText] at hrest
  · have htexts := congrArg Command.texts h.mapText
    rw [Command.texts_mapText, Command.texts_mapText, ← List.forall₂_eq_eq_eq,
      List.forall₂_map_left_iff, List.forall₂_map_right_iff] at htexts
    refine htexts.imp fun t u htu => ?_
    have hcase : EqUpToCase t u := eqUpToCase_iff.2 htu
    exact ⟨hcase.length_eq, hcase⟩
  · rw [trim, String.toList_ofList]
    exact Sentence.texts_infix _ text ht

/-- A conditional with its words and its texts in other letters. -/
theorem letter_case_ignored_conditional :
    EqUpToCase " IF Sum is LESS than 5, Show X OtherWise add 1 to Y"
        " if SUM is less Than 5, show x otherwise ADD 1 to y" ∧
      (Sentence.classify " IF Sum is LESS than 5, Show X OtherWise add 1 to Y").command.shape? =
        (Sentence.classify " if SUM is less Than 5, show x otherwise ADD 1 to y").command.shape? ∧
      List.Forall₂ (fun t u => t.length = u.length ∧ EqUpToCase t u)
        ["Sum", "Show X", "add 1 to Y"] ["SUM", "show x", "ADD 1 to y"] := by
  have h : EqUpToCase " IF Sum is LESS than 5, Show X OtherWise add 1 to Y"
      " if SUM is less Than 5, show x otherwise ADD 1 to y" := by
    rw [EqUpToCase]
    decide +kernel
  obtain ⟨-, hshape, -, htexts⟩ := letter_case_ignored.1 _ _ h
  have ha : (Sentence.classify " IF Sum is LESS than 5, Show X OtherWise add 1 to Y").command.texts =
      ["Sum", "Show X", "add 1 to Y"] := by decide +kernel
  have hb : (Sentence.classify " if SUM is less Than 5, show x otherwise ADD 1 to y").command.texts =
      ["SUM", "show x", "ADD 1 to y"] := by decide +kernel
  rw [ha, hb] at htexts
  exact ⟨h, hshape, htexts⟩

end SentenceScript
