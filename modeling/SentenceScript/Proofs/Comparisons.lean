import SentenceScript.Proofs.Binary64
import SentenceScript.Proofs.Conditionals
import SentenceScript.Proofs.Path

namespace SentenceScript

open SentenceScript.Action Text

namespace Binary64

open Float.Model (UnpackedFloat)

def unpacked (x : Float) : UnpackedFloat := UnpackedFloat.unpack .binary64 (word x)

theorem compare_swap (a b : UnpackedFloat) : b.compare a = (a.compare b).map Ordering.swap := by
  have hthen (e e' : Int) (m m' : Nat) : (compare e' e).then (compare m' m) =
      ((compare e e').then (compare m m')).swap := by
    rw [Ordering.swap_then, ← Std.OrientedCmp.eq_swap, ← Std.OrientedCmp.eq_swap]
  cases a with
  | notANumber => cases b <;> rfl
  | zero sign =>
      cases b with
      | notANumber | zero => rfl
      | infinity sign' | finite sign' => cases sign' <;> rfl
  | infinity sign =>
      cases b with
      | notANumber => rfl
      | zero | finite => cases sign <;> rfl
      | infinity sign' => cases sign <;> cases sign' <;> rfl
  | finite sign m e hm =>
      cases b with
      | notANumber => rfl
      | zero => cases sign <;> rfl
      | infinity sign' => cases sign <;> cases sign' <;> rfl
      | finite sign' m' e' hm' =>
          -- Of two negative numbers the one with the greater magnitude is the smaller.
          cases sign <;> cases sign'
          · exact congrArg (some ∘ Ordering.swap) (hthen e e' m m')
          · rfl
          · rfl
          · exact congrArg some (hthen e e' m m')

theorem lt_iff (x y : Float) : x < y ↔ (unpacked x).compare (unpacked y) = some .lt := by
  change decide (x.toModel < y.toModel) = true ↔ _
  rw [decide_eq_true_iff]
  exact beq_iff_eq

theorem beq_iff (x y : Float) : (x == y) = true ↔ (unpacked x).compare (unpacked y) = some .eq := by
  change ((unpacked x).compare (unpacked y) == some .eq) = true ↔ _
  exact beq_iff_eq

theorem compare_of_isNaN {x y : Float} (h : x.isNaN = true ∨ y.isNaN = true) :
    (unpacked x).compare (unpacked y) = none := by
  have hnan {z : Float} (hz : z.isNaN = true) : unpacked z = .notANumber :=
    UnpackedFloat.isNaN_iff.1 hz
  rcases h with h | h
  · rw [hnan h]
    rfl
  · rw [hnan h]
    cases unpacked x <;> rfl

end Binary64

namespace Value

open Binary64

theorem numericOrder?_eq (x y : Float) :
    numericOrder? x y = (unpacked x).compare (unpacked y) := by
  have hswap := compare_swap (unpacked x) (unpacked y)
  unfold numericOrder?
  simp only [lt_iff, beq_iff, hswap]
  cases (unpacked x).compare (unpacked y) with
  | none => rfl
  | some o => cases o <;> rfl

theorem order?_eq {a b : Value} (h : a.isNumber = true ∨ b.isNumber = true) :
    order? a b = (unpacked a.toNumber).compare (unpacked b.toNumber) := by
  rw [← numericOrder?_eq]
  cases a with
  | number => rfl
  | text =>
      cases b with
      | number => rfl
      | text => rcases h with h | h <;> cases h

theorem order?_swap (a b : Value) : order? b a = (order? a b).map Ordering.swap := by
  by_cases h : a.isNumber = true ∨ b.isNumber = true
  · rw [order?_eq h, order?_eq h.symm, compare_swap]
  · cases a with
    | number => exact absurd (.inl rfl) h
    | text s =>
        cases b with
        | number => exact absurd (.inr rfl) h
        | text t => exact congrArg some Std.OrientedCmp.eq_swap

end Value

namespace Comparison

def flipped : Comparison → Comparison
  | above => below
  | below => above
  | equalTo => equalTo

theorem wanted_inj {c c' : Comparison} (h : c.wanted = c'.wanted) : c = c' := by
  cases c <;> cases c' <;> first | rfl | cases h

theorem wanted_flipped (c : Comparison) : c.flipped.wanted = c.wanted.swap := by
  cases c <;> rfl

theorem holds_iff {c : Comparison} {a b : Value} :
    c.holds a b = true ↔
      (c = .equalTo → a.isNumber = b.isNumber) ∧ Value.order? a b = some c.wanted := by
  rw [holds, Bool.and_eq_true, beq_iff_eq, Bool.or_eq_true, bne_iff_ne, beq_iff_eq, imp_iff_not_or]

/-- What holds between two values holds between them in the other order, turned around. -/
theorem holds_flipped (c : Comparison) (a b : Value) : c.flipped.holds b a = c.holds a b := by
  have hequal : c.flipped = .equalTo ↔ c = .equalTo := by cases c <;> simp [flipped]
  have horder : Value.order? b a = some c.flipped.wanted ↔ Value.order? a b = some c.wanted := by
    rw [Value.order?_swap a b, wanted_flipped, Option.map_eq_some_iff]
    simp only [Ordering.swap_inj, exists_eq_right]
  rw [Bool.eq_iff_iff, holds_iff, holds_iff, hequal, horder, eq_comm (a := b.isNumber)]

/-- Unless both are texts, values are above and below each other as the numbers are that they spell. -/
theorem holds_below_iff {a b : Value} (h : a.isNumber = true ∨ b.isNumber = true) :
    below.holds a b = true ↔ a.toNumber < b.toNumber := by
  rw [holds_iff, Value.order?_eq h, Binary64.lt_iff]
  exact and_iff_right Comparison.noConfusion

theorem holds_text_iff (c : Comparison) (s t : String) :
    c.holds (.text s) (.text t) = true ↔ compare s t = c.wanted := by
  have hkind : c = .equalTo → (Value.text s).isNumber = (Value.text t).isNumber := fun _ => rfl
  rw [holds_iff, and_iff_right hkind]
  exact Option.some_inj

end Comparison

namespace Text

theorem dropBlanksEnd_append (s : List Char) {t : List Char} (h : dropBlanksEnd t ≠ []) :
    dropBlanksEnd (s ++ t) = s ++ dropBlanksEnd t := by
  rw [dropBlanksEnd, Ne, List.reverse_eq_nil_iff, dropBlanks] at h
  rw [dropBlanksEnd, dropBlanksEnd, List.reverse_append, dropBlanks, dropBlanks, List.dropWhile_append,
    if_neg (by rwa [List.isEmpty_iff]), List.reverse_append, List.reverse_reverse]

theorem dropBlanksEnd_ne_nil {s : List Char} {c : Char} (hc : c ∈ s) (hb : isBlank c = false) :
    dropBlanksEnd s ≠ [] := by
  rw [dropBlanksEnd, Ne, List.reverse_eq_nil_iff, dropBlanks, List.dropWhile_eq_nil_iff]
  intro h
  cases hb.symm.trans (h c (List.mem_reverse.2 hc))

end Text

/-- A conditional on two variables with two clauses. -/
def conditionalLine (x : String) (phrase : Phrase) (y yes no : String) : String :=
  "if " ++ x ++ " is " ++ phrase.text ++ " " ++ y ++ ", " ++ yes ++ " otherwise " ++ no

namespace WrittenCondition

/-- The head of a conditional on two variables. -/
def ofNames {x y : List Char} (hx : Slot.IsName x) (phrase : Phrase) (hy : Slot.IsName y) :
    WrittenCondition where
  opening := "if ".toList
  subject := x
  copula := " is ".toList
  phrase := phrase
  operand := .name y hy
  opening_fold := rfl
  subject_name := hx
  copula_fold := rfl

theorem ofNames_condition {x y : String} (hx : Slot.IsName x.toList) (phrase : Phrase)
    (hy : Slot.IsName y.toList) :
    (ofNames hx phrase hy).condition = ⟨x, phrase.comparison, .named y⟩ := by
  simp only [condition, ofNames, WrittenOperand.operand, String.ofList_toList]

end WrittenCondition

namespace Sentence

variable {x y yes no : String}

/-- Where the clauses are, the head of a conditional has no part in it. -/
theorem classify_conditionalLine (hyes : '\n' ∉ yes.toList) (hno : '\n' ∉ no.toList) :
    ∃ first second, ∀ x y : String, Slot.IsName x.toList → Slot.IsName y.toList →
      ∀ phrase : Phrase, (classify (conditionalLine x phrase y yes no)).command =
        .conditional ⟨x, phrase.comparison, .named y⟩ first second := by
  let rest := yes.toList ++ (" otherwise ".toList ++ no.toList)
  have hne : dropBlanksEnd rest ≠ [] := by
    refine dropBlanksEnd_ne_nil (c := 'o') ?_ rfl
    exact List.mem_append_right _ (List.mem_append_left _ (by decide))
  have hrow : IsRow (dropBlanksEnd rest) := by
    refine ⟨hne, fun hm => ?_⟩
    have hmem := (dropBlanksEnd_isPrefix rest).subset hm
    simp only [rest, List.mem_append] at hmem
    rcases hmem with h | h | h
    · exact hyes h
    · exact absurd h (by decide)
    · exact hno h
  obtain ⟨⟨first, second⟩, hs⟩ := Option.isSome_iff_exists.1 (Slot.splitClauses_isSome hrow)
  have htake : Slot.takeClauses (dropBlanksEnd rest) = some (first :: second.toList, []) := by
    rw [Slot.takeClauses, hs]
    rfl
  refine ⟨String.ofList first, second.map String.ofList, fun x y hx hy phrase => ?_⟩
  have hline : (trim (conditionalLine x phrase y yes no)).toList =
      (WrittenCondition.ofNames hx phrase hy).chars ++ dropBlanksEnd rest := by
    have hchars : (conditionalLine x phrase y yes no).toList =
        (WrittenCondition.ofNames hx phrase hy).chars ++ rest := by
      delta conditionalLine
      simp only [Phrase.text, String.toList_append, String.toList_ofList, List.append_assoc,
        WrittenCondition.ofNames, WrittenCondition.chars, WrittenOperand.chars, rest]
    have hhead : ∀ c ∈ ((WrittenCondition.ofNames hx phrase hy).chars ++ rest).head?,
        isBlank c = false := by
      rintro _ ⟨⟩
      rfl
    rw [trim, String.toList_ofList, hchars, strip, dropBlanks_eq_self hhead,
      dropBlanksEnd_append _ hne]
  rw [(WrittenCondition.ofNames hx phrase hy).classify_eq second hline
    (Slot.accepts_of_takeClauses htake).2, WrittenCondition.ofNames_condition]

/-- Two conditionals with the same clauses do the same where they come to the same verdict. -/
theorem execute_of_verdict (world : World) (finish : Action Unit) {line line' : String} {s : State}
    {c c' : Condition} {yes : String} {no : Option String} {holds : Bool}
    (h : (classify line).command = .conditional c yes no)
    (h' : (classify line').command = .conditional c' yes no)
    (hv : c.verdict? s = some holds) (hv' : c'.verdict? s = some holds) :
    execute world finish line s = execute world finish line' s := by
  rw [execute_conditional _ _ h, execute_conditional _ _ h', bind_ok (test_of_verdict hv),
    bind_ok (test_of_verdict hv')]

end Sentence

/-- Of the three comparisons at most one holds between two values, and turned around it holds in the
other order. Between two texts exactly one holds, by the order of their characters; a text and a
number are never equal, and otherwise numbers are compared, so that what is not a number is above,
below and equal to nothing. A conditional may therefore be turned around, whatever its clauses are. -/
theorem comparisons_coherent :
    (∀ a b : Value,
      (∀ c c' : Comparison, c.holds a b = true → c'.holds a b = true → c = c') ∧
      (Comparison.above.holds a b = true ↔ Comparison.below.holds b a = true) ∧
      (Comparison.equalTo.holds a b = true ↔ Comparison.equalTo.holds b a = true)) ∧
    (∀ s t : String,
      (∃! c : Comparison, c.holds (.text s) (.text t) = true) ∧
      (Comparison.below.holds (.text s) (.text t) = true ↔ List.Lex (· < ·) s.toList t.toList) ∧
      (Comparison.above.holds (.text s) (.text t) = true ↔ List.Lex (· < ·) t.toList s.toList) ∧
      (Comparison.equalTo.holds (.text s) (.text t) = true ↔ s = t)) ∧
    (∀ (s : String) (n : Float), Comparison.equalTo.holds (.text s) (.number n) = false ∧
      Comparison.equalTo.holds (.number n) (.text s) = false) ∧
    (∀ m n : Float, Comparison.equalTo.holds (.number m) (.number n) = (m == n)) ∧
    (∀ a b : Value, a.isNumber = true ∨ b.isNumber = true →
      (Comparison.below.holds a b = true ↔ a.toNumber < b.toNumber) ∧
      (Comparison.above.holds a b = true ↔ b.toNumber < a.toNumber) ∧
      (a.toNumber.isNaN = true ∨ b.toNumber.isNaN = true → ∀ c : Comparison, c.holds a b = false)) ∧
    ∀ (world : World) (s : State) (x y yes no : String) (phrase phrase' : Phrase) (a b : Value),
      Slot.IsName x.toList → Slot.IsName y.toList → s.bindings.get? x = some a →
      s.bindings.get? y = some b → '\n' ∉ yes.toList → '\n' ∉ no.toList →
      phrase.comparison = .above → phrase'.comparison = .below →
      s.execute world (conditionalLine x phrase y yes no) =
        s.execute world (conditionalLine y phrase' x yes no) := by
  have hflip (a b : Value) : Comparison.above.holds a b = true ↔ Comparison.below.holds b a = true := by
    rw [← Comparison.holds_flipped .above]
    rfl
  have hbelow (s t : String) : Comparison.below.holds (.text s) (.text t) = true ↔
      List.Lex (· < ·) s.toList t.toList := by
    rw [Comparison.holds_text_iff]
    exact compare_lt_iff_lt.trans String.lt_iff_toList_lt
  refine ⟨fun a b => ⟨fun c c' h h' => ?_, hflip a b, ?_⟩, fun s t => ⟨?_, hbelow s t, ?_, ?_⟩,
    fun s n => ⟨rfl, rfl⟩, fun m n => ?_, fun a b h => ⟨Comparison.holds_below_iff h, ?_, ?_⟩, ?_⟩
  · have horder := (Comparison.holds_iff.1 h).2.symm.trans (Comparison.holds_iff.1 h').2
    exact Comparison.wanted_inj (Option.some.inj horder)
  · rw [← Comparison.holds_flipped .equalTo]
    rfl
  · simp only [Comparison.holds_text_iff]
    cases compare s t with
    | lt => exact ⟨.below, rfl, fun c hc => Comparison.wanted_inj hc.symm⟩
    | eq => exact ⟨.equalTo, rfl, fun c hc => Comparison.wanted_inj hc.symm⟩
    | gt => exact ⟨.above, rfl, fun c hc => Comparison.wanted_inj hc.symm⟩
  · rw [hflip, hbelow]
  · rw [Comparison.holds_text_iff]
    exact compare_eq_iff_eq
  · rw [Bool.eq_iff_iff, Comparison.holds_iff, Value.order?_eq (.inl rfl), Binary64.beq_iff]
    exact and_iff_right fun _ => rfl
  · rw [hflip, Comparison.holds_below_iff h.symm]
  · intro hnan c
    rw [Bool.eq_false_iff, Ne, Comparison.holds_iff, Value.order?_eq h,
      Binary64.compare_of_isNaN hnan]
    rintro ⟨-, ⟨⟩⟩
  · intro world s x y yes no phrase phrase' a b hx hy ha hb hyes hno hp hp'
    obtain ⟨first, second, hc⟩ := Sentence.classify_conditionalLine hyes hno
    have hv : Condition.verdict? s ⟨x, phrase.comparison, .named y⟩ =
        some (Comparison.above.holds a b) := by
      simp only [Condition.verdict?, Operand.value?, ha, hb, hp, Option.bind_some, Option.map_some]
    have hv' : Condition.verdict? s ⟨y, phrase'.comparison, .named x⟩ =
        some (Comparison.above.holds a b) := by
      simp only [Condition.verdict?, Operand.value?, ha, hb, hp', Option.bind_some, Option.map_some,
        ← Comparison.holds_flipped .above, Comparison.flipped]
    exact Sentence.execute_of_verdict world _ (hc x y hx hy phrase) (hc y x hy hx phrase') hv hv'

/-- A text that spells no number compares with none. A conditional with `otherwise` twice is cut in
one place, whichever of its variables comes first. -/
theorem comparisons_coherent_text_and_number :
    let world : World := ⟨{}, Canned.services .epoch⟩
    let s : State := { bindings := [("x", .text "ten"), ("y", .number 1)] }
    (∀ c : Comparison, c.holds (.text "ten") (.number 1) = false) ∧
      s.execute world "if x is above y, show x otherwise if x is equal to x, show y otherwise end " =
        s.execute world
          "if y is Less Than x, show x otherwise if x is equal to x, show y otherwise end " := by
  intro world s
  obtain ⟨-, -, -, -, hnumber, hturned⟩ := comparisons_coherent
  have hname {c : Char} (hc : isNameStart c = true) : Slot.IsName [c] :=
    ⟨c, [], rfl, hc, List.forall_mem_nil _⟩
  refine ⟨(hnumber (.text "ten") (.number 1) (.inr rfl)).2.2 (.inl (by decide +kernel)), ?_⟩
  exact hturned world s "x" "y" "show x" "if x is equal to x, show y otherwise end "
    ⟨"above".toList, .above, by decide⟩ ⟨"Less Than".toList, .below, by decide⟩ (.text "ten")
    (.number 1) (hname rfl) (hname rfl) rfl rfl (by decide) (by decide) rfl rfl

end SentenceScript
