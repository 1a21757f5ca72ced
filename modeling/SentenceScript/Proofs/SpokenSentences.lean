import SentenceScript.Proofs.Grammar
import SentenceScript.Proofs.SpeechText

namespace SentenceScript

open Text

namespace Speech

def isSmall (c : Char) : Bool := ('a' ≤ c && c ≤ 'z') || c == '_'

/-- A name in small letters. -/
def IsSmallName : List Char → Prop
  | [] => False
  | c :: r => isSmall c = true ∧ ∀ d ∈ r, isSmall d = true ∨ d.isDigit = true

instance : DecidablePred IsSmallName
  | [] => .isFalse id
  | _ :: r =>
      haveI := List.decidableBAll (fun d => isSmall d = true ∨ d.isDigit = true) r
      instDecidableAnd

/-- A character that is spoken and written alike outside quotation marks. -/
def isPlain (c : Char) : Bool := isSmall c || c.isDigit || c == '-' || c == '.'

theorem isPlain_lt {c : Char} (h : isPlain c = true) : c.toNat < 128 := by
  simp only [isPlain, isSmall, Char.isDigit, Bool.or_eq_true, Bool.and_eq_true, decide_eq_true_eq,
    beq_iff_eq, Char.le_def, UInt32.le_iff_toNat_le] at h
  rcases h with ((((h | rfl) | h) | rfl) | rfl)
  · exact Nat.lt_of_le_of_lt h.2 (by decide)
  · decide
  · exact Nat.lt_of_le_of_lt h.2 (by decide)
  · decide
  · decide

theorem isPlain_spec {c : Char} (h : isPlain c = true) :
    c ≠ '"' ∧ c ≠ '\n' ∧ isBlank c = false ∧ lowercase c = [c] :=
  ascii_forall (P := fun c => isPlain c = true →
    c ≠ '"' ∧ c ≠ '\n' ∧ isBlank c = false ∧ lowercase c = [c]) (by decide) (isPlain_lt h) h

theorem isNameStart_of_isSmall {c : Char} (h : isSmall c = true) : isNameStart c = true := by
  have hlt : c.toNat < 128 := isPlain_lt (by rw [isPlain, h]; rfl)
  exact ascii_forall (P := fun c => isSmall c = true → isNameStart c = true) (by decide) hlt h

theorem IsSmallName.isName {s : List Char} (h : IsSmallName s) : Slot.IsName s := by
  cases s with
  | nil => cases h
  | cons c r =>
      refine ⟨c, r, rfl, isNameStart_of_isSmall h.1, fun d hd => ?_⟩
      rcases h.2 d hd with hs | hs
      · rw [isNamePart, isNameStart_of_isSmall hs, Bool.true_or]
      · rw [isNamePart, hs, Bool.or_true]

theorem IsSmallName.plain {s : List Char} (h : IsSmallName s) : ∀ c ∈ s, isPlain c = true := by
  cases s with
  | nil => cases h
  | cons c r =>
      rw [List.forall_mem_cons]
      refine ⟨by rw [isPlain, h.1]; rfl, fun d hd => ?_⟩
      rcases h.2 d hd with hs | hs
      · rw [isPlain, hs]; rfl
      · rw [isPlain, hs, Bool.or_true]; rfl

theorem isNumeral_plain {s : List Char} {x : Float} (h : IsNumeral s x) :
    ∀ c ∈ s, isPlain c = true := by
  intro c hc
  rcases h.chars c hc with rfl | rfl | hd
  · rfl
  · rfl
  · rw [isPlain, hd, Bool.or_true]; rfl

def startsWord (s : String) : Bool := s.toList.head?.any fun c => !isBlank c

theorem startsWord_spec {s : String} (h : startsWord s = true) :
    s.toList ≠ [] ∧ ∀ c ∈ s.toList.head?, isBlank c = false := by
  unfold startsWord at h
  cases hs : s.toList with
  | nil => rw [hs] at h; cases h
  | cons c r =>
      rw [hs] at h
      refine ⟨nofun, fun d hd => ?_⟩
      cases hd
      simpa using h

/-- A text that a sentence may quote. -/
structure Quotable (s : List Char) : Prop where
  no_quote : '"' ∉ s
  no_feed : '\n' ∉ s
  unbroken : Unbroken s

instance (s : List Char) : Decidable (Quotable s) :=
  decidable_of_iff ('"' ∉ s ∧ '\n' ∉ s ∧ Unbroken s)
    ⟨fun h => ⟨h.1, h.2.1, h.2.2⟩, fun h => ⟨h.no_quote, h.no_feed, h.unbroken⟩⟩

/-- What sentences are put together from. Words are spoken in one way and written in another. -/
inductive Part where
  | words (spoken written : String)
  | name (s : List Char)
  | number (s : List Char)
  | quoted (s : List Char)

namespace Part

def spoken : Part → List Char
  | words s _ => s.toList
  | name s | number s => s
  | quoted s => '"' :: (s ++ ['"'])

def written : Part → List Char
  | words _ w => w.toList
  | name s | number s => s
  | quoted s => '"' :: (s ++ ['"'])

def captures : Part → List (List Char)
  | words _ _ => []
  | name s | number s | quoted s => [s]

def Sound : Part → Prop
  | words s w => s.toList.flatMap lowercase = w.toList ∧ '"' ∉ s.toList ∧ '.' ∉ s.toList ∧
      '\n' ∉ w.toList ∧ w.toList.map fold = w.toList
  | name s => IsSmallName s
  | number s => ∃ x, IsNumeral s x
  | quoted s => Quotable s

instance (s w : String) : Decidable (words s w).Sound :=
  inferInstanceAs (Decidable (_ ∧ _ ∧ _ ∧ _ ∧ _))

variable {p : Part}

theorem quoted_append (s rest : List Char) :
    '"' :: (s ++ ['"']) ++ rest = '"' :: (s ++ '"' :: rest) := by
  rw [List.cons_append, List.append_assoc, List.singleton_append]

theorem spoken_quoted (s rest : List Char) :
    (quoted s).spoken ++ rest = ['"'] ++ (s ++ (['"'] ++ rest)) := quoted_append s rest

theorem plain_lower {s : List Char} (h : ∀ c ∈ s, isPlain c = true) (rest : List Char) :
    lowerUnquoted false (s ++ rest) = s ++ lowerUnquoted false rest := by
  have hsame : s.flatMap lowercase = s := by
    rw [List.flatMap_congr fun c hc => (isPlain_spec (h c hc)).2.2.2]
    simp
  rw [lowerUnquoted_plain fun hm => (isPlain_spec (h _ hm)).1 rfl, hsame]

theorem lower_append (h : p.Sound) (rest : List Char) :
    lowerUnquoted false (p.spoken ++ rest) = p.written ++ lowerUnquoted false rest := by
  cases p with
  | words s w =>
      obtain ⟨hlower, hquote, -⟩ := h
      rw [spoken, written, lowerUnquoted_plain hquote, hlower]
  | name s => exact plain_lower (IsSmallName.plain h) rest
  | number s =>
      obtain ⟨x, hx⟩ := h
      exact plain_lower (isNumeral_plain hx) rest
  | quoted s =>
      rw [spoken, written, quoted_append, quoted_append, lowerUnquoted_quoted (Quotable.no_quote h)]

theorem unbroken_append (h : p.Sound) {rest : List Char} (hr : Unbroken rest) :
    Unbroken (p.spoken ++ rest) := by
  cases p with
  | words s w => exact .append_of_not_mem h.2.2.1 hr
  | name s => exact .append_of_not_mem (h.isName.not_mem (by decide)) hr
  | number s =>
      obtain ⟨x, hx⟩ := h
      have hu : Unbroken s := unbroken_of_no_blank fun c hc =>
        (isPlain_spec (isNumeral_plain hx c hc)).2.2.1
      refine hu.append (fun hl => ?_) hr
      obtain ⟨c, hc, hd⟩ := hx.ends
      rw [hl] at hc
      cases hc
      cases hd
  | quoted s =>
      rw [spoken, quoted_append]
      exact .quoted (Quotable.unbroken h) hr

theorem written_one_row (h : p.Sound) : '\n' ∉ p.written := by
  cases p with
  | words s w => exact h.2.2.2.1
  | name s => exact fun hm => (isPlain_spec (h.plain _ hm)).2.1 rfl
  | number s =>
      obtain ⟨x, hx⟩ := h
      exact fun hm => (isPlain_spec (isNumeral_plain hx _ hm)).2.1 rfl
  | quoted s =>
      have hs : '\n' ∉ s := Quotable.no_feed h
      simp [written, hs]

/-- The parts that a sentence may start with. -/
def opens : Part → Bool
  | words s w => startsWord s && startsWord w
  | _ => false

/-- The parts that a sentence may end with. -/
def closes : Part → Bool
  | number _ | quoted _ => true
  | _ => false

theorem exists_last (h : p.Sound) (hc : p.closes = true) :
    p.spoken = p.written ∧ ∃ c, p.written.getLast? = some c ∧ isBlank c = false ∧ c ≠ '.' := by
  cases p with
  | words | name => cases hc
  | number s =>
      obtain ⟨x, hx⟩ := h
      obtain ⟨c, hl, hd⟩ := hx.ends
      refine ⟨rfl, c, hl, isBlank_of_isDigit hd, ?_⟩
      rintro rfl
      cases hd
  | quoted s =>
      have hl : (('"' :: s) ++ ['"']).getLast? = some '"' := List.getLast?_concat
      exact ⟨rfl, '"', hl, rfl, by decide⟩

end Part

def spoken (parts : List Part) : List Char := parts.flatMap Part.spoken

def written (parts : List Part) : List Char := parts.flatMap Part.written

section Parts

variable {parts : List Part}

theorem lower_spoken (h : ∀ p ∈ parts, p.Sound) :
    lowerUnquoted false (spoken parts) = written parts := by
  induction parts with
  | nil => rfl
  | cons p parts ih =>
      rw [List.forall_mem_cons] at h
      exact (Part.lower_append h.1 _).trans (congrArg _ (ih h.2))

theorem unbroken_spoken (h : ∀ p ∈ parts, p.Sound) : Unbroken (spoken parts) := by
  induction parts with
  | nil => exact .nil
  | cons p parts ih =>
      rw [List.forall_mem_cons] at h
      exact Part.unbroken_append h.1 (ih h.2)

theorem written_one_row (h : ∀ p ∈ parts, p.Sound) : '\n' ∉ written parts := by
  intro hm
  obtain ⟨p, hp, hc⟩ := List.mem_flatMap.1 hm
  exact Part.written_one_row (h p hp) hc

end Parts

/-- Sentences that start with words and end with a number or a quotation. -/
structure Complete (parts : List Part) : Prop where
  sound : ∀ p ∈ parts, p.Sound
  opens : parts.head?.any Part.opens = true
  closes : parts.getLast?.any Part.closes = true

namespace Complete

variable {parts : List Part}

theorem exists_head (h : Complete parts) : ∃ s w rest, startsWord s = true ∧ startsWord w = true ∧
    spoken parts = s.toList ++ rest ∧ ∃ rest', written parts = w.toList ++ rest' := by
  have ho := h.opens
  cases parts with
  | nil => cases ho
  | cons p rest =>
      cases p with
      | name | number | quoted => cases ho
      | words s w =>
          have hsw : startsWord s = true ∧ startsWord w = true := Bool.and_eq_true_iff.1 ho
          exact ⟨s, w, spoken rest, hsw.1, hsw.2, rfl, written rest, rfl⟩

theorem exists_last (h : Complete parts) : ∃ c, isBlank c = false ∧ c ≠ '.' ∧
    (spoken parts).getLast? = some c ∧ (written parts).getLast? = some c := by
  obtain ⟨last, hlast, hc⟩ := (Option.any_eq_true _ _).1 h.closes
  obtain ⟨mid, rfl⟩ := List.getLast?_eq_some_iff.1 hlast
  obtain ⟨heq, c, hl, hblank, hperiod⟩ := Part.exists_last (h.sound last (by simp)) hc
  refine ⟨c, hblank, hperiod, ?_, ?_⟩
  · simp [spoken, heq, hl]
  · simp [written, hl]

/-- A complete sentence is found again between others. -/
theorem spoken (h : Complete parts) : Spoken (spoken parts) := by
  obtain ⟨s, w, rest, hs, hw, hspoken, rest', hwritten⟩ := h.exists_head
  obtain ⟨c, hblank, hperiod, hlast, hlast'⟩ := h.exists_last
  obtain ⟨hsn, hss⟩ := startsWord_spec hs
  obtain ⟨hwn, hws⟩ := startsWord_spec hw
  refine ⟨?_, ?_, ?_, ?_, unbroken_spoken h.sound, ?_⟩
  · rw [hspoken]
    exact List.append_ne_nil_of_left_ne_nil hsn _
  · rwa [hspoken, List.head?_append_of_ne_nil _ hsn]
  · rw [hlast]
    rintro d ⟨⟩
    exact hblank
  · rw [hlast]
    rintro ⟨⟩
    exact hperiod rfl
  · rw [lower_spoken h.sound]
    refine ⟨?_, strip_eq_self ?_ ?_, written_one_row h.sound⟩
    · rw [hwritten]
      exact List.append_ne_nil_of_left_ne_nil hwn _
    · rwa [hwritten, List.head?_append_of_ne_nil _ hwn]
    · rw [hlast']
      rintro d ⟨⟩
      exact hblank

theorem isLine (h : Complete parts) : IsLine (written parts) := by
  have hl := h.spoken.isLine
  rwa [lower_spoken h.sound] at hl

end Complete

/-- Whether parts fill the pieces of a form one by one. -/
def fills : List Part → Form → Bool
  | [], [] => true
  | .words _ w :: parts, .words choices :: form => choices.contains w && fills parts form
  | .name _ :: parts, .slot .name :: form
  | .number _ :: parts, .slot .number :: form
  | .quoted _ :: parts, .slot .quoted :: form => fills parts form
  | _, _ => false

theorem matches_written {parts : List Part} {form : Form} (hs : ∀ p ∈ parts, p.Sound)
    (hf : fills parts form = true) : form.Matches (written parts) (parts.flatMap Part.captures) := by
  fun_induction fills parts form with
  | case1 => exact .nil
  | case2 s w parts choices form ih =>
      rw [Bool.and_eq_true_iff, List.contains_iff_mem] at hf
      rw [List.forall_mem_cons] at hs
      exact .words w w.toList hf.1 hs.1.2.2.2.2 (ih hs.2 hf.2)
  | case3 name parts form ih =>
      rw [List.forall_mem_cons] at hs
      exact .slot (.name (IsSmallName.isName hs.1)) (ih hs.2 hf)
  | case4 digits parts form ih =>
      rw [List.forall_mem_cons] at hs
      obtain ⟨x, hx⟩ := hs.1
      exact .slot (Slot.accepts_of_isNumeral hx) (ih hs.2 hf)
  | case5 t parts form ih =>
      rw [List.forall_mem_cons] at hs
      exact .slot (.quoted ⟨t, Quotable.no_quote hs.1⟩) (ih hs.2 hf)
  | case6 => cases hf

theorem Complete.classify_eq {parts : List Part} (h : Complete parts) (shape : Shape) {form : Form}
    {command : Command} (hm : form ∈ shape.forms) (hf : fills parts form = true)
    (hs : shape ∉ [Shape.showTasks, .showVariable, .showResponse])
    (hc : Sentence.build? shape (parts.flatMap Part.captures) = some command) :
    (Sentence.classify (String.ofList (written parts))).command = command := by
  have hmatches : shape.Matches (written parts) _ := ⟨form, hm, matches_written h.sound hf⟩
  rw [Sentence.classify, String.toList_ofList, h.isLine.strip_eq,
    Sentence.commandIn_of_matches hmatches hs, hc, Option.getD_some]

section Sentences

def numberParts (name digits : List Char) : List Part :=
  [.words "Create " "create ", .words "a " "a ", .words "number called " "number called ",
   .name name, .words " with value " " with value ", .number digits]

def textParts (name text : List Char) : List Part :=
  [.words "Create " "create ", .words "a " "a ", .words "string" "string",
   .words " called " " called ", .name name, .words " with value " " with value ", .quoted text]

def taskParts (name status : List Char) : List Part :=
  [.words "Create " "create ", .words "a " "a ", .words "task called " "task called ", .quoted name,
   .words " with status " " with status ", .quoted status]

def endpointParts (url : List Char) : List Part :=
  [.words "Connect to " "connect to ", .words "the " "the ", .words "API at " "api at ",
   .quoted url]

variable {name digits text status url : List Char} {x : Float}

theorem numberParts_complete (hn : IsSmallName name) (hx : IsNumeral digits x) :
    Complete (numberParts name digits) := by
  refine ⟨?_, rfl, rfl⟩
  simp only [numberParts, List.forall_mem_cons]
  exact ⟨by decide, by decide, by decide, hn, by decide, ⟨x, hx⟩, nofun⟩

theorem textParts_complete (hn : IsSmallName name) (ht : Quotable text) :
    Complete (textParts name text) := by
  refine ⟨?_, rfl, rfl⟩
  simp only [textParts, List.forall_mem_cons]
  exact ⟨by decide, by decide, by decide, by decide, hn, by decide, ht, nofun⟩

theorem taskParts_complete (hn : Quotable name) (hs : Quotable status) :
    Complete (taskParts name status) := by
  refine ⟨?_, rfl, rfl⟩
  simp only [taskParts, List.forall_mem_cons]
  exact ⟨by decide, by decide, by decide, hn, by decide, hs, nofun⟩

theorem endpointParts_complete (hu : Quotable url) : Complete (endpointParts url) := by
  refine ⟨?_, rfl, rfl⟩
  simp only [endpointParts, List.forall_mem_cons]
  exact ⟨by decide, by decide, by decide, hu, nofun⟩

theorem classify_numberParts (hn : IsSmallName name) (hx : IsNumeral digits x) :
    (Sentence.classify (String.ofList (written (numberParts name digits)))).command =
      .createNumber (String.ofList name) x := by
  have hc := numberParts_complete hn hx
  refine hc.classify_eq .createNumber (List.mem_singleton_self _) rfl (by decide) ?_
  exact congrArg (Option.map _) hx.value_eq

theorem classify_textParts (hn : IsSmallName name) (ht : Quotable text) :
    (Sentence.classify (String.ofList (written (textParts name text)))).command =
      .createText (String.ofList name) (String.ofList text) := by
  have hc := textParts_complete hn ht
  exact hc.classify_eq .createText (List.mem_singleton_self _) rfl (by decide) rfl

theorem classify_taskParts (hn : Quotable name) (hs : Quotable status) :
    (Sentence.classify (String.ofList (written (taskParts name status)))).command =
      .createTask (String.ofList name) (String.ofList status) := by
  have hc := taskParts_complete hn hs
  exact hc.classify_eq .createTask (List.mem_singleton_self _) rfl (by decide) rfl

theorem classify_endpointParts (hu : Quotable url) :
    (Sentence.classify (String.ofList (written (endpointParts url)))).command =
      .connectApi (String.ofList url) := by
  have hc := endpointParts_complete hu
  exact hc.classify_eq .connectApi (List.mem_singleton_self _) rfl (by decide) rfl

end Sentences

end Speech

end SentenceScript
