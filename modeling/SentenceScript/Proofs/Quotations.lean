import SentenceScript.Proofs.Filling
import SentenceScript.Proofs.SpeechText

namespace SentenceScript

open Text

/-- Of the characters before the letters none but NUL is the small letter of another. -/
theorem Text.eq_of_mem_lowercase {c d : Char} (hz : 0 < d.toNat) (hd : d.toNat < 0x40)
    (h : d ∈ lowercase c) : c = d := by
  have hruns : capitalRuns.all fun r => decide (0x40 ≤ (r.first : Int) + r.shift) := by decide
  have halpha : d.isAlpha = false :=
    ascii_forall (P := fun d => d.toNat < 0x40 → d.isAlpha = false) (by decide) (by omega) hd
  unfold lowercase at h
  split at h
  · exact (toLower_eq_iff halpha).1 (List.mem_singleton.1 h).symm
  split at h
  · rcases List.mem_pair.1 h with rfl | rfl
    · cases halpha
    · exact absurd hd (by decide)
  split at h
  · next r hr =>
      have hcovers := List.find?_some hr
      have hshift := of_decide_eq_true (List.all_eq_true.1 hruns r (List.mem_of_find?_eq_some hr))
      simp only [CapitalRun.covers, Bool.and_eq_true, decide_eq_true_eq] at hcovers
      obtain rfl := List.mem_singleton.1 h
      rw [Char.toNat_ofNat] at hd hz
      split at hd
      · omega
      · next hvalid =>
          rw [if_neg hvalid] at hz
          exact absurd rfl hz.ne
  · exact (List.mem_singleton.1 h).symm

namespace Speech

/-- Whether what follows a character stands within quotation marks. -/
def turn (quoted : Bool) (c : Char) : Bool := if c == '"' then !quoted else quoted

/-- Whether a text ends within quotation marks, where it starts within them or not. -/
def endsQuoted (quoted : Bool) (s : List Char) : Bool := s.foldl turn quoted

/-- What stands within quotation marks, which are paired from the left. A quotation that is not closed
goes to the end. -/
def quotations : (quoted : Bool) → List Char → List (List Char)
  | false, [] => []
  | true, [] => [[]]
  | false, c :: r => quotations (turn false c) r
  | true, c :: r =>
      if c == '"' then [] :: quotations false r else (quotations true r).modifyHead (c :: ·)

variable {q : Bool} {c : Char} {s t a b : List Char}

theorem turn_of_ne (h : c ≠ '"') (q : Bool) : turn q c = q := by simp [turn, h]

theorem endsQuoted_append (q : Bool) (a b : List Char) :
    endsQuoted q (a ++ b) = endsQuoted (endsQuoted q a) b := List.foldl_append

theorem endsQuoted_of_not_mem (h : '"' ∉ s) (q : Bool) : endsQuoted q s = q := by
  induction s with
  | nil => rfl
  | cons c s ih =>
      rw [List.mem_cons, not_or] at h
      rw [endsQuoted, List.foldl_cons, turn_of_ne (Ne.symm h.1)]
      exact ih h.2

theorem endsQuoted_eq_iff (q : Bool) (s : List Char) :
    endsQuoted q s = q ↔ Even (s.count '"') := by
  induction s generalizing q with
  | nil => simp [endsQuoted]
  | cons c s ih =>
      by_cases hc : c = '"'
      · have hturn : endsQuoted q (c :: s) = endsQuoted (!q) s := by rw [hc]; rfl
        rw [hturn, hc, List.count_cons_self, Nat.even_add_one, ← ih (!q), Bool.eq_not, not_not]
      · have hturn : endsQuoted q (c :: s) = endsQuoted q s := by
          rw [endsQuoted, List.foldl_cons, turn_of_ne hc]
          rfl
        rw [hturn, List.count_cons_of_ne hc, ih]

theorem quotations_cons_of_ne (hc : c ≠ '"') (s : List Char) :
    quotations true (c :: s) = (quotations true s).modifyHead (c :: ·) :=
  if_neg (by simpa using hc)

theorem exists_quotations_true (s : List Char) : ∃ p ps, quotations true s = p :: ps := by
  induction s with
  | nil => exact ⟨[], [], rfl⟩
  | cons c s ih =>
      by_cases hc : c = '"'
      · subst hc
        exact ⟨[], _, rfl⟩
      · obtain ⟨p, ps, h⟩ := ih
        exact ⟨c :: p, ps, by rw [quotations_cons_of_ne hc, h]; rfl⟩

theorem quotations_cons_append {more : List (List Char)}
    (h : quotations (turn q c) s = quotations (turn q c) t ++ more) :
    quotations q (c :: s) = quotations q (c :: t) ++ more := by
  cases q with
  | false => exact h
  | true =>
      by_cases hc : c = '"'
      · subst hc
        exact congrArg ([] :: ·) h
      · rw [turn_of_ne hc] at h
        obtain ⟨p, ps, hp⟩ := exists_quotations_true t
        rw [quotations_cons_of_ne hc, quotations_cons_of_ne hc, h, hp]
        rfl

/-- A text that ends outside quotation marks ends the quotations in it. -/
theorem quotations_append (h : endsQuoted q a = false) (b : List Char) :
    quotations q (a ++ b) = quotations q a ++ quotations false b := by
  induction a generalizing q with
  | nil =>
      obtain rfl : q = false := h
      rfl
  | cons c a ih => exact quotations_cons_append (ih h)

theorem quotations_of_not_mem (h : '"' ∉ s) : quotations false s = [] := by
  induction s with
  | nil => rfl
  | cons c s ih =>
      rw [List.mem_cons, not_or] at h
      rw [quotations, turn_of_ne (Ne.symm h.1), ih h.2]

theorem flatten_quotations_cons (q : Bool) (c : Char) (s : List Char) :
    (quotations q (c :: s)).flatten =
      (if q && c != '"' then [c] else []) ++ (quotations (turn q c) s).flatten := by
  cases q with
  | false => rfl
  | true =>
      by_cases hc : c = '"'
      · subst hc
        rfl
      · obtain ⟨p, ps, hp⟩ := exists_quotations_true s
        rw [quotations_cons_of_ne hc, turn_of_ne hc, hp]
        simp [hc]

/-- Flattened, the quotations of two texts join also where the first ends within one. -/
theorem flatten_quotations_append (q : Bool) (a b : List Char) :
    (quotations q (a ++ b)).flatten =
      (quotations q a).flatten ++ (quotations (endsQuoted q a) b).flatten := by
  induction a generalizing q with
  | nil =>
      cases q with
      | true | false => rfl
  | cons c a ih =>
      rw [List.cons_append, flatten_quotations_cons, flatten_quotations_cons, ih, List.append_assoc]
      rfl

theorem unbroken_cons_iff : Unbroken (c :: s) ↔
    Unbroken s ∧ ¬ (c = '.' ∧ startsBlank s = true) := by
  cases s with
  | nil => simp [Unbroken, startsBlank]
  | cons d s => simp [Unbroken, startsBlank, List.isChain_cons_cons, and_comm]

theorem startsBlank_of_quotations {p : List Char} {ps : List (List Char)}
    (h : quotations true s = p :: ps) : startsBlank p = startsBlank s := by
  cases s with
  | nil =>
      cases h
      rfl
  | cons d s =>
      by_cases hd : d = '"'
      · subst hd
        cases h
        rfl
      · obtain ⟨p', ps', hp⟩ := exists_quotations_true s
        rw [quotations_cons_of_ne hd, hp] at h
        cases h
        rfl

/-- A quotation is broken where a period in it stands before a blank. -/
theorem forall_unbroken_cons (q : Bool) (c : Char) (s : List Char) :
    (∀ p ∈ quotations q (c :: s), Unbroken p) ↔
      (∀ p ∈ quotations (turn q c) s, Unbroken p) ∧
        ¬ (q = true ∧ c = '.' ∧ startsBlank s = true) := by
  cases q with
  | false => exact ⟨fun h => ⟨h, fun hb => Bool.false_ne_true hb.1⟩, And.left⟩
  | true =>
      by_cases hc : c = '"'
      · subst hc
        have hnil : Unbroken [] := .nil
        simp [quotations, turn, hnil]
      · obtain ⟨p, ps, hp⟩ := exists_quotations_true s
        rw [quotations_cons_of_ne hc, turn_of_ne hc, hp, List.modifyHead_cons, List.forall_mem_cons,
          List.forall_mem_cons, unbroken_cons_iff, startsBlank_of_quotations hp]
        tauto

/-- A text without what stands at its ends, in which there is no quotation mark. -/
def Framed (s t : List Char) : Prop := ∃ a b, s = a ++ (t ++ b) ∧ '"' ∉ a ∧ '"' ∉ b

namespace Framed

theorem trans {r : List Char} (h : Framed r s) (h' : Framed s t) : Framed r t := by
  obtain ⟨a, b, rfl, ha, hb⟩ := h
  obtain ⟨a', b', rfl, ha', hb'⟩ := h'
  refine ⟨a ++ a', b' ++ b, by simp only [List.append_assoc], ?_, ?_⟩
  · rw [List.mem_append, not_or]
    exact ⟨ha, ha'⟩
  · rw [List.mem_append, not_or]
    exact ⟨hb', hb⟩

theorem quote_not_mem_takeWhile (s : List Char) : '"' ∉ s.takeWhile isBlank :=
  fun h => Bool.false_ne_true (List.mem_takeWhile_imp h)

theorem dropBlanks (s : List Char) : Framed s (Text.dropBlanks s) :=
  ⟨s.takeWhile isBlank, [], by rw [List.append_nil, Text.dropBlanks, List.takeWhile_append_dropWhile],
    quote_not_mem_takeWhile s, List.not_mem_nil⟩

theorem dropBlanksEnd (s : List Char) : Framed s (Text.dropBlanksEnd s) := by
  refine ⟨[], (s.reverse.takeWhile isBlank).reverse, ?_, List.not_mem_nil, ?_⟩
  · rw [List.nil_append, Text.dropBlanksEnd, Text.dropBlanks, ← List.reverse_append,
      List.takeWhile_append_dropWhile, List.reverse_reverse]
  · rw [List.mem_reverse]
    exact quote_not_mem_takeWhile _

theorem strip (s : List Char) : Framed s (Text.strip s) := (dropBlanks s).trans (dropBlanksEnd _)

theorem dropPeriod (s : List Char) : Framed s (Speech.dropPeriod s) := by
  unfold Speech.dropPeriod
  split
  · next h =>
      refine ⟨[], ['.'], ?_, List.not_mem_nil, by decide⟩
      rw [List.nil_append, List.dropLast_append_getLast? _ h]
  · exact ⟨[], [], by simp, List.not_mem_nil, List.not_mem_nil⟩

theorem trimPiece (s : List Char) : Framed s (Speech.trimPiece s) :=
  ((strip s).trans (dropPeriod _)).trans (strip _)

theorem endsQuoted (h : Framed s t) (q : Bool) : Speech.endsQuoted q t = Speech.endsQuoted q s := by
  obtain ⟨a, b, rfl, ha, hb⟩ := h
  rw [endsQuoted_append, endsQuoted_append, endsQuoted_of_not_mem ha, endsQuoted_of_not_mem hb]

theorem quotations (h : Framed s t) (hs : Speech.endsQuoted false s = false) :
    Speech.quotations false t = Speech.quotations false s := by
  have ht := (h.endsQuoted false).trans hs
  obtain ⟨a, b, rfl, ha, hb⟩ := h
  rw [quotations_append (endsQuoted_of_not_mem ha false), quotations_append ht,
    quotations_of_not_mem ha, quotations_of_not_mem hb, List.nil_append, List.append_nil]

end Framed

theorem lowerUnquoted_cons_of_ne (hc : c ≠ '"') (quoted : Bool) (s : List Char) :
    lowerUnquoted quoted (c :: s) =
      (if quoted then [c] else lowercase c) ++ lowerUnquoted quoted s := by
  have hb : (c == '"') = false := by simpa using hc
  rw [lowerUnquoted, hb, if_neg Bool.false_ne_true]
  cases quoted with
  | true | false => rfl

theorem quote_not_mem_lowercase (hc : c ≠ '"') : '"' ∉ lowercase c :=
  fun h => hc (eq_of_mem_lowercase (by decide) (by decide) h)

/-- Letters change outside quotation marks only. -/
theorem quotations_lowerUnquoted (q : Bool) (s : List Char) :
    quotations q (lowerUnquoted q s) = quotations q s := by
  induction s generalizing q with
  | nil => rfl
  | cons c s ih =>
      by_cases hc : c = '"'
      · subst hc
        cases q with
        | true => exact congrArg ([] :: ·) (ih false)
        | false => exact ih true
      · rw [lowerUnquoted_cons_of_ne hc]
        cases q with
        | true =>
            exact (quotations_cons_of_ne hc _).trans
              ((congrArg _ (ih true)).trans (quotations_cons_of_ne hc s).symm)
        | false =>
            have hl := quote_not_mem_lowercase hc
            rw [if_neg Bool.false_ne_true, quotations_append (endsQuoted_of_not_mem hl false),
              quotations_of_not_mem hl, ih, List.nil_append, quotations, turn_of_ne hc]

theorem exists_cut (atStart : Bool) (s : List Char) :
    ∃ piece pieces, cut atStart s = piece :: pieces := by
  induction s generalizing atStart with
  | nil => exact ⟨[], [], rfl⟩
  | cons c s ih =>
      rw [cut]
      split
      · exact ih true
      split
      · exact ⟨[], _, rfl⟩
      · split
        · exact ⟨[c], [], rfl⟩
        · exact ⟨_, _, rfl⟩

/-- A character is a blank behind a cut, the period of one, or kept in the first piece. -/
theorem cut_cons_cases (atStart : Bool) (c : Char) (s : List Char) :
    (atStart = true ∧ isBlank c = true ∧ cut atStart (c :: s) = cut true s) ∨
      (c = '.' ∧ startsBlank s = true ∧ cut atStart (c :: s) = [] :: cut true s) ∨
      (¬ (c = '.' ∧ startsBlank s = true) ∧ ∃ piece pieces, cut false s = piece :: pieces ∧
        cut atStart (c :: s) = (c :: piece) :: pieces) := by
  obtain ⟨piece, pieces, hcut⟩ := exists_cut false s
  rw [cut, hcut]
  split
  · next h =>
      rw [Bool.and_eq_true] at h
      exact .inl ⟨h.1, h.2, rfl⟩
  split
  · next h =>
      rw [Bool.and_eq_true, beq_iff_eq] at h
      exact .inr (.inl ⟨h.1, h.2, rfl⟩)
  · next h =>
      rw [Bool.and_eq_true, beq_iff_eq] at h
      exact .inr (.inr ⟨h, piece, pieces, rfl, rfl⟩)

theorem ne_quote_of_isBlank (h : isBlank c = true) : c ≠ '"' := by
  rintro rfl
  cases h

/-- Where no quotation is broken, every piece ends outside quotation marks, and the pieces have the
quotations of the text. -/
theorem quotations_cut {atStart : Bool} (hs : endsQuoted q s = false)
    (hw : ∀ p ∈ quotations q s, Unbroken p) (hq : atStart = true → q = false) :
    ∃ piece pieces, cut atStart s = piece :: pieces ∧ endsQuoted q piece = false ∧
      (∀ p ∈ pieces, endsQuoted false p = false) ∧
      quotations q s = quotations q piece ++ pieces.flatMap (quotations false) := by
  induction s generalizing atStart q with
  | nil => exact ⟨[], [], rfl, hs, List.forall_mem_nil _, (List.append_nil _).symm⟩
  | cons c s ih =>
      obtain ⟨hw, hbreak⟩ := (forall_unbroken_cons q c s).1 hw
      rcases cut_cons_cases atStart c s with
        ⟨ha, hb, hcut⟩ | ⟨rfl, hb, hcut⟩ | ⟨-, piece, pieces, hrest, hcut⟩
      · obtain rfl := hq ha
        have hturn : turn false c = false := turn_of_ne (ne_quote_of_isBlank hb) false
        rw [hcut, quotations, hturn]
        rw [endsQuoted, List.foldl_cons, hturn] at hs
        rw [hturn] at hw
        exact ih hs hw fun _ => rfl
      · -- A cut within quotation marks would be a break in a quotation.
        obtain rfl : q = false := Bool.eq_false_iff.2 fun hq => hbreak ⟨hq, rfl, hb⟩
        obtain ⟨piece, pieces, hrest, hpiece, hpieces, hquotations⟩ :=
          ih hs hw fun _ : true = true => rfl
        refine ⟨[], piece :: pieces, hcut.trans (congrArg _ hrest), rfl, ?_, ?_⟩
        · exact List.forall_mem_cons.2 ⟨hpiece, hpieces⟩
        · exact hquotations
      · obtain ⟨_, _, hrest', hpiece, hpieces, hquotations⟩ := ih hs hw fun h => absurd h Bool.false_ne_true
        cases hrest.symm.trans hrest'
        exact ⟨c :: piece, pieces, hcut, hpiece, hpieces, quotations_cons_append hquotations⟩

theorem quotations_lines {lines : List (List Char)} (h : ∀ l ∈ lines, endsQuoted false l = false) :
    quotations false (['\n'].intercalate lines) = lines.flatMap (quotations false) := by
  induction lines with
  | nil => rfl
  | cons l lines ih =>
      obtain ⟨hl, h⟩ := List.forall_mem_cons.1 h
      cases lines with
      | nil => simp
      | cons m lines =>
          rw [List.intercalate_cons_cons, List.append_assoc, quotations_append hl,
            quotations_append rfl, ih h]
          rfl

/-- The number of periods within quotation marks. -/
def quotedPeriods (quoted : Bool) (s : List Char) : Nat := (quotations quoted s).flatten.count '.'

theorem quotedPeriods_append (q : Bool) (a b : List Char) : quotedPeriods q (a ++ b) =
    quotedPeriods q a + quotedPeriods (endsQuoted q a) b := by
  rw [quotedPeriods, flatten_quotations_append, List.count_append]
  rfl

theorem quotedPeriods_cons (q : Bool) (c : Char) (s : List Char) : quotedPeriods q (c :: s) =
    (if q = true ∧ c = '.' then 1 else 0) + quotedPeriods (turn q c) s := by
  rw [quotedPeriods, flatten_quotations_cons, List.count_append]
  congr 1
  cases q with
  | false => rfl
  | true =>
      by_cases hc : c = '.'
      · subst hc
        rfl
      · split <;> simp [hc]

theorem quotedPeriods_of_not_mem (h : '.' ∉ s) (q : Bool) : quotedPeriods q s = 0 := by
  induction s generalizing q with
  | nil =>
      cases q with
      | true | false => rfl
  | cons c s ih =>
      rw [List.mem_cons, not_or] at h
      rw [quotedPeriods_cons, ih h.2, if_neg fun hc => h.1 hc.2.symm]

/-- In the second text there are the same quotation marks, and no more periods within them. -/
def Thinned (s t : List Char) : Prop :=
  ∀ q, endsQuoted q t = endsQuoted q s ∧ quotedPeriods q t ≤ quotedPeriods q s

namespace Thinned

theorem refl (s : List Char) : Thinned s s := fun _ => ⟨rfl, le_rfl⟩

theorem trans {r : List Char} (h : Thinned r s) (h' : Thinned s t) : Thinned r t :=
  fun q => ⟨(h' q).1.trans (h q).1, (h' q).2.trans (h q).2⟩

theorem append {s' t' : List Char} (h : Thinned s t) (h' : Thinned s' t') :
    Thinned (s ++ s') (t ++ t') := by
  intro q
  rw [endsQuoted_append, endsQuoted_append, quotedPeriods_append, quotedPeriods_append, (h q).1]
  exact ⟨(h' _).1, Nat.add_le_add (h q).2 (h' _).2⟩

theorem dropped (h : '"' ∉ s) : Thinned s [] := by
  intro q
  refine ⟨(endsQuoted_of_not_mem h q).symm, ?_⟩
  rw [quotedPeriods_of_not_mem List.not_mem_nil]
  exact Nat.zero_le _

theorem of_framed (h : Framed s t) : Thinned s t := by
  obtain ⟨a, b, rfl, ha, hb⟩ := h
  have ht := (dropped ha).append ((refl t).append (dropped hb))
  rwa [List.nil_append, List.append_nil] at ht

theorem of_not_mem (hs : '"' ∉ s) (ht : '"' ∉ t) (hp : '.' ∉ t) : Thinned s t := by
  intro q
  rw [endsQuoted_of_not_mem hs, endsQuoted_of_not_mem ht, quotedPeriods_of_not_mem hp]
  exact ⟨rfl, Nat.zero_le _⟩

theorem lowerUnquoted (quoted : Bool) (s : List Char) :
    Thinned s (Speech.lowerUnquoted quoted s) := by
  induction s generalizing quoted with
  | nil => exact refl []
  | cons c s ih =>
      by_cases hc : c = '"'
      · subst hc
        exact (refl ['"']).append (ih (!quoted))
      · rw [lowerUnquoted_cons_of_ne hc]
        refine append (s := [c]) ?_ (ih quoted)
        cases quoted with
        | true => exact refl [c]
        | false =>
            by_cases hp : c = '.'
            · subst hp
              exact refl ['.']
            · have hl : '.' ∉ lowercase c :=
                fun h => hp (eq_of_mem_lowercase (by decide) (by decide) h)
              have hquote : '"' ∉ [c] := by simpa using Ne.symm hc
              exact of_not_mem hquote (quote_not_mem_lowercase hc) hl

theorem cut (atStart : Bool) (s : List Char) : Thinned s (Speech.cut atStart s).flatten := by
  induction s generalizing atStart with
  | nil => exact refl []
  | cons c s ih =>
      rcases cut_cons_cases atStart c s with
        ⟨-, hb, hcut⟩ | ⟨rfl, -, hcut⟩ | ⟨-, piece, pieces, hrest, hcut⟩
      · have hc : '"' ∉ [c] := by simpa using (ne_quote_of_isBlank hb).symm
        rw [hcut]
        exact (dropped hc).append (ih true)
      · rw [hcut]
        exact (dropped (by decide : '"' ∉ ['.'])).append (ih true)
      · have hpieces := (refl [c]).append (ih false)
        rw [hrest] at hpieces
        rwa [hcut]

theorem flatten_map {f : List Char → List Char} (h : ∀ s, Thinned s (f s))
    (all : List (List Char)) : Thinned all.flatten (all.map f).flatten := by
  induction all with
  | nil => exact refl []
  | cons s all ih => exact (h s).append ih

theorem lines (all : List (List Char)) : Thinned all.flatten (['\n'].intercalate all) := by
  induction all with
  | nil => exact refl []
  | cons l all ih =>
      cases all with
      | nil =>
          simpa using refl l
      | cons m all =>
          have hbreak : Thinned [] ['\n'] := of_not_mem List.not_mem_nil (by decide) (by decide)
          rw [List.intercalate_cons_cons, List.append_assoc]
          exact (refl l).append (hbreak.append ih)

end Thinned

/-- Where a quotation is broken, the period at the cut is lost from it. -/
theorem quotedPeriods_cut_lt (atStart : Bool) (h : ¬ ∀ p ∈ quotations q s, Unbroken p) :
    quotedPeriods q (cut atStart s).flatten < quotedPeriods q s := by
  induction s generalizing atStart q with
  | nil =>
      refine absurd (fun p hp => ?_) h
      cases q with
      | false => cases hp
      | true =>
          cases List.mem_singleton.1 hp
          exact .nil
  | cons c s ih =>
      rw [forall_unbroken_cons, not_and_or, not_not] at h
      rw [quotedPeriods_cons]
      rcases cut_cons_cases atStart c s with
        ⟨-, hb, hcut⟩ | ⟨rfl, hb, hcut⟩ | ⟨hkept, piece, pieces, hrest, hcut⟩
      · have hturn := turn_of_ne (ne_quote_of_isBlank hb) q
        rw [hcut]
        rcases h with h | ⟨-, rfl, -⟩
        · rw [hturn] at h ⊢
          exact Nat.lt_add_left _ (ih true h)
        · cases hb
      · have hturn : turn q '.' = q := turn_of_ne (by decide) q
        rw [hcut, List.flatten_cons, List.nil_append]
        rw [hturn] at h ⊢
        -- The break is a later one, or it is here and the rest gains no period.
        rcases h with h | ⟨rfl, -⟩
        · exact Nat.lt_add_left _ (ih true h)
        · have hle := (Thinned.cut true s true).2
          rw [if_pos ⟨rfl, rfl⟩]
          omega
      · have h := h.resolve_right fun hb => hkept hb.2
        have hlt := ih false h
        rw [hrest] at hlt
        rw [hcut]
        change quotedPeriods q (c :: (piece :: pieces).flatten) < _
        rw [quotedPeriods_cons]
        exact Nat.add_lt_add_left hlt _

/-- The lines that a text is cut into. -/
def lines (s : List Char) : List (List Char) :=
  (((cut false s).map trimPiece).filter (· ≠ [])).map (lowerUnquoted false)

theorem toList_toLines (text : String) :
    (toLines text).toList = ['\n'].intercalate (lines text.toList) := by
  have hlines : lines text.toList = (((cut false text.toList).map trimPiece).filter (· ≠ [])).map
      (String.toList ∘ fun s => String.ofList (lowerUnquoted false s)) :=
    List.map_congr_left fun s _ => String.toList_ofList.symm
  rw [toLines, String.toList_intercalate, List.map_map, hlines]
  rfl

theorem thinned_lines (s : List Char) :
    Thinned (cut false s).flatten (['\n'].intercalate (lines s)) := by
  have htrim := Thinned.flatten_map (fun p => .of_framed (.trimPiece p)) (cut false s)
  rw [← List.flatten_filter_ne_nil (L := (cut false s).map trimPiece)] at htrim
  exact htrim.trans ((Thinned.flatten_map (.lowerUnquoted false) _).trans (.lines _))

theorem quotations_lines_of_unbroken (hs : endsQuoted false s = false)
    (hw : ∀ p ∈ quotations false s, Unbroken p) :
    quotations false (['\n'].intercalate (lines s)) = quotations false s := by
  obtain ⟨piece, pieces, hcut, hpiece, hpieces, hquotations⟩ := quotations_cut hs hw fun _ => rfl
  have hpieces : ∀ p ∈ cut false s, endsQuoted false p = false := by
    rw [hcut]
    exact List.forall_mem_cons.2 ⟨hpiece, hpieces⟩
  have hlines : ∀ l ∈ lines s, endsQuoted false l = false := by
    intro l hl
    obtain ⟨m, hm, rfl⟩ := List.mem_map.1 hl
    obtain ⟨p, hp, rfl⟩ := List.mem_map.1 (List.mem_of_mem_filter hm)
    rw [(Thinned.lowerUnquoted false _ false).1, (Framed.trimPiece p).endsQuoted, hpieces p hp]
  have hempty (all : List (List Char)) :
      (all.filter (· ≠ [])).flatMap (quotations false) = all.flatMap (quotations false) := by
    induction all with
    | nil => rfl
    | cons l all ih =>
        cases l with
        | nil => exact ih
        | cons c l => exact congrArg (quotations false (c :: l) ++ ·) ih
  calc quotations false (['\n'].intercalate (lines s))
      = (lines s).flatMap (quotations false) := quotations_lines hlines
    _ = (((cut false s).map trimPiece).filter (· ≠ [])).flatMap (quotations false) := by
        rw [lines, List.flatMap_map]
        exact List.flatMap_congr fun l _ => quotations_lowerUnquoted false l
    _ = (cut false s).flatMap (quotations false) := by
        rw [hempty, List.flatMap_map]
        exact List.flatMap_congr fun p hp => (Framed.trimPiece p).quotations (hpieces p hp)
    _ = quotations false s := by
        rw [hcut, hquotations]
        rfl

end Speech

/-- The lines that a text with its quotation marks in pairs stands for have the quotations of the
text exactly if in none of these a period stands before a blank. -/
theorem quotations_survive_iff (text : String) (h : Even (text.toList.count '"')) :
    Speech.quotations false (Speech.toLines text).toList = Speech.quotations false text.toList ↔
      ∀ p ∈ Speech.quotations false text.toList, Speech.Unbroken p := by
  have hs := (Speech.endsQuoted_eq_iff false text.toList).2 h
  rw [Speech.toList_toLines]
  refine ⟨fun he => ?_, Speech.quotations_lines_of_unbroken hs⟩
  -- The letters of a broken quotation may change as well, but its period is lost in any case.
  by_contra hbroken
  have hlt := Speech.quotedPeriods_cut_lt false hbroken
  have hle := (Speech.thinned_lines text.toList false).2
  rw [Speech.quotedPeriods, he] at hle
  exact absurd hle (Nat.not_le.2 hlt)

/-- A period before a quotation mark ends no sentence, and one between digits neither. -/
theorem quotations_survive_iff_inner_periods :
    Even ("Show \"V1.2.\". SHOW \"Ab\".".toList.count '"') ∧
      Speech.quotations false (Speech.toLines "Show \"V1.2.\". SHOW \"Ab\".").toList =
        ["V1.2.".toList, "Ab".toList] := by
  have heven : Even ("Show \"V1.2.\". SHOW \"Ab\".".toList.count '"') := by decide
  have hquotations : Speech.quotations false "Show \"V1.2.\". SHOW \"Ab\".".toList =
      ["V1.2.".toList, "Ab".toList] := by decide
  have hkept : ∀ p ∈ ["V1.2.".toList, "Ab".toList], Speech.Unbroken p := by decide
  have hlines := (quotations_survive_iff "Show \"V1.2.\". SHOW \"Ab\"." heven).2
  rw [hquotations] at hlines
  exact ⟨heven, hlines hkept⟩

/-- A quotation of two sentences is cut in two, and the second is taken as not quoted. -/
theorem quotation_broken_by_period :
    Even ("Show \"Hello. World\".".toList.count '"') ∧
      Speech.toLines "Show \"Hello. World\"." = "show \"Hello\nworld\"" ∧
      Speech.quotations false (Speech.toLines "Show \"Hello. World\".").toList ≠
        Speech.quotations false "Show \"Hello. World\".".toList := by
  have hlines : Speech.toLines "Show \"Hello. World\"." = "show \"Hello\nworld\"" := by decide
  refine ⟨by decide, hlines, ?_⟩
  rw [hlines]
  decide

end SentenceScript
