import SentenceScript.Sentence.Classify

namespace SentenceScript

namespace Text

theorem ascii_forall {P : Char → Prop} (h : ∀ n < 128, P (Char.ofNat n)) {c : Char}
    (hc : c.toNat < 128) : P c := by
  have hp := h c.toNat hc
  rwa [Char.ofNat_toNat] at hp

theorem dropBlanks_cons {c : Char} (h : isBlank c = false) (s : List Char) :
    dropBlanks (c :: s) = c :: s := by
  simp [dropBlanks, h]

theorem dropBlanks_cases (s : List Char) :
    dropBlanks s = [] ∨ ∃ c r, isBlank c = false ∧ dropBlanks s = c :: r := by
  induction s with
  | nil => exact .inl rfl
  | cons c r ih =>
      cases hc : isBlank c with
      | true => simpa [dropBlanks, hc] using ih
      | false => exact .inr ⟨c, r, hc, dropBlanks_cons hc r⟩

theorem dropBlanks_idem (s : List Char) : dropBlanks (dropBlanks s) = dropBlanks s := by
  rcases dropBlanks_cases s with h | ⟨c, r, hc, h⟩
  · rw [h]; rfl
  · rw [h, dropBlanks_cons hc]

theorem dropBlanksEnd_idem (s : List Char) : dropBlanksEnd (dropBlanksEnd s) = dropBlanksEnd s := by
  simp only [dropBlanksEnd, List.reverse_reverse, dropBlanks_idem]

theorem dropBlanksEnd_cons {c : Char} (h : isBlank c = false) (s : List Char) :
    dropBlanksEnd (c :: s) = c :: dropBlanksEnd s := by
  simp only [dropBlanksEnd, dropBlanks, List.reverse_cons, List.dropWhile_append]
  split <;> simp_all

theorem strip_strip (s : List Char) : strip (strip s) = strip s := by
  unfold strip
  rcases dropBlanks_cases s with h | ⟨c, r, hc, h⟩
  · rw [h]; rfl
  · rw [h, dropBlanksEnd_cons hc, dropBlanks_cons hc, dropBlanksEnd_cons hc, dropBlanksEnd_idem]

theorem dropBlanks_eq_self {s : List Char} (h : ∀ c ∈ s.head?, isBlank c = false) :
    dropBlanks s = s := by
  cases s with
  | nil => rfl
  | cons c r => exact dropBlanks_cons (h c rfl) r

theorem strip_eq_self {s : List Char} (hh : ∀ c ∈ s.head?, isBlank c = false)
    (hl : ∀ c ∈ s.getLast?, isBlank c = false) : strip s = s := by
  have hr : ∀ c ∈ s.reverse.head?, isBlank c = false := by rwa [List.head?_reverse]
  rw [strip, dropBlanks_eq_self hh, dropBlanksEnd, dropBlanks_eq_self hr, List.reverse_reverse]

theorem strip_append {w z : List Char} (m : List Char) (hw : w ≠ []) (hz : z ≠ [])
    (hh : ∀ c ∈ w.head?, isBlank c = false) (hl : ∀ c ∈ z.getLast?, isBlank c = false) :
    strip (w ++ (m ++ z)) = w ++ (m ++ z) := by
  apply strip_eq_self
  · rw [List.head?_eq_some_head hw] at hh
    rwa [List.head?_append, List.head?_eq_some_head hw, Option.some_or]
  · rw [List.getLast?_eq_some_getLast hz] at hl
    rwa [← List.append_assoc, List.getLast?_append, List.getLast?_eq_some_getLast hz, Option.some_or]

theorem strip_blanks_append {before : List Char} (h : ∀ c ∈ before, isBlank c = true)
    (s : List Char) : strip (before ++ s) = strip s := by
  rw [strip, strip, dropBlanks, dropBlanks, List.dropWhile_append_of_pos h]

theorem strip_append_blanks {after : List Char} (h : ∀ c ∈ after, isBlank c = true)
    (s : List Char) : strip (s ++ after) = strip s := by
  have hend (t : List Char) : dropBlanksEnd (t ++ after) = dropBlanksEnd t := by
    have hr : ∀ c ∈ after.reverse, isBlank c = true := fun c hc => h c (List.mem_reverse.1 hc)
    rw [dropBlanksEnd, dropBlanksEnd, List.reverse_append, dropBlanks, dropBlanks,
      List.dropWhile_append_of_pos hr]
  by_cases hs : dropBlanks s = []
  · have hall : dropBlanks (s ++ after) = [] := by
      rw [← List.append_nil after]
      simp only [dropBlanks, List.dropWhile_append, List.dropWhile_append_of_pos h] at hs ⊢
      simp [hs]
    rw [strip, strip, hall, hs]
  · have hkeep : dropBlanks (s ++ after) = dropBlanks s ++ after := by
      simp only [dropBlanks, List.dropWhile_append] at hs ⊢
      simp [hs]
    rw [strip, strip, hkeep, hend]

/-- Folding and ASCII lower case agree on the texts that become ASCII words. -/
theorem map_fold_of_map_toLower {s w : List Char} (h : s.map Char.toLower = w)
    (hs : '\u017f' ∉ w) (hk : '\u212a' ∉ w) : s.map fold = w := by
  rw [← h]
  refine List.map_congr_left fun c hc => ?_
  have hm : c.toLower ∈ w := h ▸ List.mem_map_of_mem hc
  unfold fold
  split
  · next he => subst he; exact absurd hm hs
  · split
    · next he => subst he; exact absurd hm hk
    · rfl

theorem map_toLower_of_map_fold {s w : List Char} (h : s.map fold = w)
    (hs : '\u017f' ∉ s) (hk : '\u212a' ∉ s) : s.map Char.toLower = w := by
  rw [← h]
  refine List.map_congr_left fun c hc => ?_
  have hne : c ≠ '\u017f' := fun he => hs (he ▸ hc)
  have hne' : c ≠ '\u212a' := fun he => hk (he ▸ hc)
  rw [fold, if_neg hne, if_neg hne']

theorem eat?_append {w p : List Char} (h : p.map fold = w) (r : List Char) :
    eat? w (p ++ r) = some r := by
  subst h
  induction p with
  | nil => rfl
  | cons c p ih => simpa [eat?] using ih

theorem map_fold_of_eat? {w s r : List Char} (h : eat? w s = some r) :
    s.map fold = w ++ r.map fold := by
  induction w generalizing s with
  | nil => cases h; rfl
  | cons a w ih =>
      cases s with
      | nil => simp [eat?] at h
      | cons c s =>
          simp only [eat?] at h
          split at h
          · next hc => simpa [hc] using ih h
          · simp at h

theorem eat?_eq_none {w v s : List Char} (h : s.map fold = v) (hn : ¬ w <+: v) :
    eat? w s = none := by
  cases he : eat? w s with
  | none => rfl
  | some r => exact absurd ⟨_, (map_fold_of_eat? he).symm⟩ (h ▸ hn)

end Text

open Text

/-- Whether a line that starts with some characters, up to folding, may have the form. Nothing
behind its first slot is looked at. -/
def Form.mayStart : List Char → Form → Bool
  | start, [] => start.isEmpty
  | _, .slot _ :: _ => true
  | start, .words choices :: ps =>
      choices.any fun w => start.isPrefixOf w.toList ||
        (w.toList.isPrefixOf start && mayStart (start.drop w.toList.length) ps)

def Shape.mayStart (shape : Shape) (start : List Char) : Bool :=
  shape.forms.any (Form.mayStart start)

theorem Form.mayStart_of_read? {form : Form} {start s : List Char} {captures : List (List Char)}
    (h : form.read? s = some captures) (hs : start <+: s.map fold) :
    form.mayStart start = true := by
  induction form generalizing start s captures with
  | nil =>
      rw [Form.read?] at h
      split at h
      · next he => simpa [mayStart, List.isEmpty_iff.1 he] using hs
      · simp at h
  | cons p ps ih =>
      cases p with
      | slot kind => rfl
      | words choices =>
          simp only [Form.read?, Piece.take, bind, Option.bind_eq_some_iff,
            Option.map_eq_some_iff] at h
          obtain ⟨⟨taken, rest⟩, ⟨r, hr, heq⟩, more, hm, -⟩ := h
          obtain ⟨w, hw, he⟩ := List.exists_of_findSome?_eq_some hr
          cases heq
          have hsplit : s.map fold = w.toList ++ rest.map fold := map_fold_of_eat? he
          refine List.any_eq_true.2 ⟨w, hw, Bool.or_eq_true_iff.2 ?_⟩
          rcases List.prefix_or_prefix_of_prefix hs ⟨_, hsplit.symm⟩ with hp | hp
          · exact .inl (List.isPrefixOf_iff_prefix.2 hp)
          · refine .inr (Bool.and_eq_true_iff.2 ⟨List.isPrefixOf_iff_prefix.2 hp, ih hm ?_⟩)
            obtain ⟨more, rfl⟩ := hp
            rw [hsplit, List.prefix_append_right_inj] at hs
            rwa [List.drop_left]

/-- A line has no shape whose words differ from its first characters. -/
theorem Shape.read?_eq_none {shape : Shape} {start s : List Char}
    (h : shape.mayStart start = false) (hs : start <+: s.map fold) : shape.read? s = none := by
  rw [read?, List.findSome?_eq_none_iff]
  intro form hf
  cases hr : form.read? s with
  | none => rfl
  | some captures => exact absurd (Form.mayStart_of_read? hr hs) (List.any_eq_false.1 h form hf)

namespace Sentence

/-- The first shape of the catalog that reads a line gives its command. -/
theorem commandIn_of_first {shape : Shape} {s : List Char} {captures : List (List Char)}
    (hb : ∀ other ∈ Shape.catalog.takeWhile (· != shape), other.read? s = none)
    (hm : shape ∈ Shape.catalog) (hr : shape.read? s = some captures) :
    commandIn Shape.catalog s = (build? shape captures).getD .unknown := by
  have hf (catalog : List Shape)
      (hb : ∀ other ∈ catalog.takeWhile (· != shape), other.read? s = none)
      (hm : shape ∈ catalog) :
      catalog.findSome? (fun other => (other.read? s).map fun cs => (other, cs)) =
        some (shape, captures) := by
    induction catalog with
    | nil => simp at hm
    | cons other rest ih =>
        by_cases ho : other = shape
        · simp [ho, hr]
        · have hn : other.read? s = none := hb other (by simp [ho])
          simp only [List.findSome?_cons, hn, Option.map_none]
          exact ih (fun x hx => hb x (by simp [ho, hx])) (by simpa [Ne.symm ho] using hm)
  simp only [commandIn, hf _ hb hm]

/-- A line that no earlier shape of the catalog may start has the command of the shape that reads
it. -/
theorem commandIn_of_read? (start : List Char) {shape : Shape} {s : List Char}
    {captures : List (List Char)}
    (hb : ∀ other ∈ Shape.catalog.takeWhile (· != shape), other.mayStart start = false)
    (hm : shape ∈ Shape.catalog) (hs : start <+: s.map fold)
    (hr : shape.read? s = some captures) :
    commandIn Shape.catalog s = (build? shape captures).getD .unknown :=
  commandIn_of_first (fun other ho => Shape.read?_eq_none (hb other ho) hs) hm hr

theorem commandIn_endWord {s : List Char}
    (h : s.map fold = "end".toList ∨ s.map fold = "done".toList) :
    commandIn Shape.catalog s = .endLoop := by
  rcases h with h | h
  · have hr : Shape.endLoop.read? s = some [] := by
      have he : eat? "end".toList s = some [] := by simpa using eat?_append h []
      simp only [Shape.read?, Shape.forms, Form.read?, Piece.take, List.findSome?_cons, he]
      rfl
    exact commandIn_of_read? ['e'] (by decide) (by decide) (by simp [h]) hr
  · have hr : Shape.endLoop.read? s = some [] := by
      have he : eat? "done".toList s = some [] := by simpa using eat?_append h []
      have hn : eat? "end".toList s = none := eat?_eq_none h (by decide)
      simp only [Shape.read?, Shape.forms, Form.read?, Piece.take, List.findSome?_cons, hn, he]
      rfl
    -- One letter would not do here, since other shapes start with it and come earlier.
    exact commandIn_of_read? ['d', 'o'] (by decide) (by decide) (by simp [h]) hr

theorem classify_trim (line : String) : classify (trim line) = classify line := by
  simp only [classify, trim, String.toList_ofList, strip_strip]

theorem classify_endsLoop {line : String} (h : endsLoop (trim line) = true) :
    (classify line).command = .endLoop := by
  have hw : (strip line.toList).map Char.toLower = "end".toList ∨
      (strip line.toList).map Char.toLower = "done".toList := by
    simpa [endsLoop, trim] using h
  refine commandIn_endWord (hw.imp (fun hw => ?_) fun hw => ?_)
  · exact map_fold_of_map_toLower hw (by decide) (by decide)
  · exact map_fold_of_map_toLower hw (by decide) (by decide)

end Sentence

end SentenceScript
