import SentenceScript.Sentence.Classify

namespace SentenceScript

open Text

namespace Slot

/-- Nothing taken is longer than the text it was taken from. -/
def Taken.Within (t : Taken) (n : Nat) : Prop :=
  ∀ cs r, t = some (cs, r) → r.length ≤ n ∧ ∀ c ∈ cs, c.length ≤ n

theorem length_takeWhile_add_dropWhile (p : Char → Bool) (s : List Char) :
    (s.takeWhile p).length + (s.dropWhile p).length = s.length := by
  rw [← List.length_append, List.takeWhile_append_dropWhile]

theorem takeName_within (s : List Char) : (takeName s).Within s.length := by
  intro cs r h
  cases s with
  | nil => simp [takeName] at h
  | cons c t =>
      have hl := length_takeWhile_add_dropWhile isNamePart t
      simp only [takeName] at h
      split at h
      · simp only [Option.some.injEq, Prod.mk.injEq] at h
        obtain ⟨rfl, rfl⟩ := h
        simp only [List.mem_singleton, forall_eq, List.length_cons]
        omega
      · simp at h

theorem takeCount_within (s : List Char) : (takeCount s).Within s.length := by
  intro cs r h
  have hl := length_takeWhile_add_dropWhile Char.isDigit s
  simp only [takeCount] at h
  split at h
  · simp at h
  · simp only [Option.some.injEq, Prod.mk.injEq] at h
    obtain ⟨rfl, rfl⟩ := h
    simp only [List.mem_singleton, forall_eq]
    omega

theorem takeUnsigned_length {s n r : List Char} (h : takeUnsigned s = some (n, r)) :
    n.length + r.length = s.length := by
  have hl := length_takeWhile_add_dropWhile Char.isDigit s
  simp only [takeUnsigned] at h
  split at h
  · simp at h
  · split at h
    · next rest heq =>
        have hf := length_takeWhile_add_dropWhile Char.isDigit rest
        rw [heq] at hl
        split at h <;> simp only [Option.some.injEq, Prod.mk.injEq] at h <;> obtain ⟨rfl, rfl⟩ := h
        · simpa using hl
        · simp only [List.length_append, List.length_cons] at hl ⊢; omega
    · simp only [Option.some.injEq, Prod.mk.injEq] at h
      obtain ⟨rfl, rfl⟩ := h
      exact hl

theorem takeNumber_within (s : List Char) : (takeNumber s).Within s.length := by
  intro cs r h
  unfold takeNumber at h
  split at h <;> simp only [Option.map_eq_some_iff, Prod.mk.injEq] at h <;>
    obtain ⟨⟨n, rest⟩, hn, rfl, rfl⟩ := h <;> have hl := takeUnsigned_length hn <;>
    simp only [List.mem_singleton, forall_eq, List.length_cons] <;> omega

theorem takeQuoted_within (s : List Char) : (takeQuoted s).Within s.length := by
  intro cs r h
  unfold takeQuoted at h
  split at h
  · next t =>
      have hl := length_takeWhile_add_dropWhile (· != '"') t
      split at h
      · next rest heq =>
          simp only [Option.some.injEq, Prod.mk.injEq] at h
          obtain ⟨rfl, rfl⟩ := h
          simp only [heq, List.length_cons] at hl
          simp only [List.mem_singleton, forall_eq, List.length_cons]
          omega
      · simp at h
  · simp at h

theorem takePhrase_within (s : List Char) : (takePhrase s).Within s.length := by
  intro cs r h
  simp only [takePhrase] at h
  obtain ⟨⟨w, c⟩, _, hw⟩ := List.exists_of_findSome?_eq_some h
  simp only [Option.map_eq_some_iff, Prod.mk.injEq] at hw
  obtain ⟨rest, he, rfl, rfl⟩ := hw
  have hl := eat?_length he
  simp only [List.mem_singleton, forall_eq, List.length_take]
  omega

theorem blanksThenRow?_length {s r : List Char} (h : blanksThenRow? s = some r) :
    r.length < s.length := by
  induction s with
  | nil => simp [blanksThenRow?] at h
  | cons c t ih =>
      simp only [blanksThenRow?] at h
      split at h
      · rcases Option.or_eq_some_iff.1 h with h | ⟨_, h⟩
        · have := ih h; simp only [List.length_cons]; omega
        · simp only [wholeRow?] at h
          split at h
          · simp at h
          · simp only [Option.some.injEq] at h; subst h; simp
      · simp at h

theorem otherwise?_length {s r : List Char} (h : otherwise? s = some r) : r.length < s.length := by
  cases s with
  | nil => simp [otherwise?] at h
  | cons c t =>
      simp only [otherwise?] at h
      split at h
      · obtain ⟨u, hu, hr⟩ := Option.bind_eq_some_iff.1 h
        have h₁ := eat?_length hu
        have h₂ := blanksThenRow?_length hr
        have h₃ := dropBlanks_length_le t
        simp only [List.length_cons]
        omega
      · simp at h

theorem splitClauses_length {s yes : List Char} {no : Option (List Char)}
    (h : splitClauses s = some (yes, no)) :
    yes.length ≤ s.length ∧ ∀ c ∈ no, c.length ≤ s.length := by
  induction s generalizing yes with
  | nil => simp [splitClauses] at h
  | cons c t ih =>
      simp only [splitClauses] at h
      split at h
      · simp at h
      · split at h
        · next r hr =>
            have hl := otherwise?_length hr
            simp only [Option.some.injEq, Prod.mk.injEq] at h
            obtain ⟨rfl, rfl⟩ := h
            simp only [Option.mem_def, Option.some.injEq, forall_eq', List.length_cons,
              List.length_nil]
            omega
        · split at h
          · simp only [Option.some.injEq, Prod.mk.injEq] at h
            obtain ⟨rfl, rfl⟩ := h
            simp
          · simp only [Option.map_eq_some_iff, Prod.mk.injEq] at h
            obtain ⟨⟨a, b⟩, hab, rfl, rfl⟩ := h
            obtain ⟨h₁, h₂⟩ := ih hab
            refine ⟨by simp only [List.length_cons]; omega, fun c hc => ?_⟩
            have := h₂ c hc
            simp only [List.length_cons]; omega

theorem takeClauses_within (s : List Char) : (takeClauses s).Within s.length := by
  intro cs r h
  simp only [takeClauses, Option.map_eq_some_iff, Prod.mk.injEq] at h
  obtain ⟨⟨yes, no⟩, hs, rfl, rfl⟩ := h
  obtain ⟨h₁, h₂⟩ := splitClauses_length hs
  refine ⟨by simp, fun c hc => ?_⟩
  rcases List.mem_cons.1 hc with rfl | hc
  · exact h₁
  · exact h₂ c (Option.mem_toList.1 hc)

theorem takeRemark_within (s : List Char) : (takeRemark s).Within s.length := by
  intro cs r h
  simp only [takeRemark] at h
  split at h
  · simp at h
  · simp only [Option.some.injEq, Prod.mk.injEq] at h
    obtain ⟨rfl, rfl⟩ := h
    simpa using dropBlanks_length_le s

theorem take_within (kind : Slot) (s : List Char) : (kind.take s).Within s.length := by
  cases kind with
  | name => exact takeName_within s
  | number => exact takeNumber_within s
  | count => exact takeCount_within s
  | quoted => exact takeQuoted_within s
  | phrase => exact takePhrase_within s
  | clauses => exact takeClauses_within s
  | remark => exact takeRemark_within s

end Slot

theorem Piece.take_within (p : Piece) (s : List Char) : (p.take s).Within s.length := by
  cases p with
  | words choices =>
      intro cs r h
      simp only [Piece.take, Option.map_eq_some_iff, Prod.mk.injEq] at h
      obtain ⟨rest, hr, rfl, rfl⟩ := h
      obtain ⟨w, _, hw⟩ := List.exists_of_findSome?_eq_some hr
      have hl := eat?_length hw
      simp only [List.not_mem_nil, false_implies, implies_true, and_true]
      omega
  | slot kind => exact kind.take_within s

theorem Form.read?_length {f : Form} {s : List Char} {cs : List (List Char)}
    (h : f.read? s = some cs) : ∀ c ∈ cs, c.length ≤ s.length := by
  induction f generalizing s cs with
  | nil =>
      simp only [Form.read?] at h
      split at h <;> simp_all
  | cons p ps ih =>
      simp only [Form.read?, bind, Option.bind_eq_some_iff, pure, Option.some.injEq] at h
      obtain ⟨⟨taken, rest⟩, hp, more, hm, rfl⟩ := h
      obtain ⟨hr, hc⟩ := p.take_within s taken rest hp
      intro c hmem
      rcases List.mem_append.1 hmem with hmem | hmem
      · exact hc c hmem
      · exact Nat.le_trans (ih hm c hmem) hr

theorem Form.read?_words_length {w : String} {f : Form} {s : List Char} {cs : List (List Char)}
    (h : Form.read? (.words [w] :: f) s = some cs) : ∀ c ∈ cs, w.length + c.length ≤ s.length := by
  simp only [Form.read?, bind, Option.bind_eq_some_iff, pure, Option.some.injEq, Piece.take,
    List.findSome?_cons, List.findSome?_nil, Option.map_eq_some_iff] at h
  obtain ⟨⟨taken, rest⟩, ⟨r, hr, heq⟩, more, hm, rfl⟩ := h
  cases heq
  intro c hc
  have hw : eat? w.toList s = some rest := by
    revert hr
    cases eat? w.toList s <;> simp
  have h₁ := eat?_length hw
  have h₂ : c.length ≤ rest.length := Form.read?_length hm c (by simpa using hc)
  simp only [String.length_toList] at h₁
  omega

theorem Shape.read?_if_length {shape : Shape} (hs : shape = .ifNumber ∨ shape = .ifVariable)
    {s : List Char} {cs : List (List Char)} (h : shape.read? s = some cs) :
    ∀ c ∈ cs, c.length < s.length := by
  intro c hc
  obtain ⟨f, hf, hr⟩ := List.exists_of_findSome?_eq_some h
  have : "if ".length + c.length ≤ s.length := by
    rcases hs with rfl | rfl <;>
      · simp only [Shape.forms, List.mem_singleton] at hf
        subst hf
        exact Form.read?_words_length hr c hc
  have h3 : "if ".length = 3 := by decide
  omega

namespace Sentence

theorem conditional?_eq_some {subject phrase yes : List Char} {operand : Option Operand}
    {no : Option (List Char)} {c : Condition} {y : String} {n : Option String}
    (h : conditional? subject phrase operand yes no = some (.conditional c y n)) :
    y = String.ofList yes ∧ n = no.map String.ofList := by
  simp only [conditional?, bind, Option.bind_eq_some_iff, pure, Option.some.injEq,
    Command.conditional.injEq] at h
  obtain ⟨_, _, _, _, _, hy, hn⟩ := h
  exact ⟨hy.symm, hn.symm⟩

theorem build?_conditional {shape : Shape} {cs : List (List Char)} {c : Condition} {yes : String}
    {no : Option String} (h : build? shape cs = some (.conditional c yes no)) :
    (shape = .ifNumber ∨ shape = .ifVariable) ∧ yes.toList ∈ cs ∧ ∀ n ∈ no, n.toList ∈ cs := by
  unfold build? at h
  split at h <;> first
    | contradiction
    | exact absurd h (by simp [Option.map_eq_some_iff, bind, Option.bind_eq_some_iff])
    | (obtain ⟨rfl, rfl⟩ := conditional?_eq_some h; simp)

theorem commandIn_conditional {catalog : List Shape} {s : List Char} {c : Condition} {yes : String}
    {no : Option String} (h : commandIn catalog s = .conditional c yes no) :
    yes.length < s.length ∧ ∀ n ∈ no, n.length < s.length := by
  unfold commandIn at h
  split at h
  · next shape cs hfind =>
      obtain ⟨sh, _, hsh⟩ := List.exists_of_findSome?_eq_some hfind
      simp only [Option.map_eq_some_iff, Prod.mk.injEq] at hsh
      obtain ⟨cs', hr, rfl, rfl⟩ := hsh
      have hb : build? sh cs' = some (.conditional c yes no) := by
        cases hb : build? sh cs' with
        | none => simp [hb] at h
        | some k => simpa [hb] using h
      obtain ⟨hs, hy, hn⟩ := build?_conditional hb
      have hl := Shape.read?_if_length hs hr
      simp only [← String.length_toList]
      exact ⟨hl _ hy, fun n hm => hl _ (hn n hm)⟩
  · simp at h

theorem classify_conditional {line : String} {c : Condition} {yes : String} {no : Option String}
    (h : (classify line).command = .conditional c yes no) :
    yes.length < line.length ∧ ∀ n ∈ no, n.length < line.length := by
  have hl := strip_length_le line.toList
  obtain ⟨hy, hn⟩ := commandIn_conditional h
  simp only [String.length_toList] at hl
  exact ⟨by omega, fun n hm => by have := hn n hm; omega⟩

end Sentence

end SentenceScript
