import Mathlib.Data.List.TakeWhile
import SentenceScript.Proofs.Wording

namespace SentenceScript

open Text

/-- One letter of a sentence, up to folding, or one slot. -/
inductive Mark where
  | letter (c : Char)
  | slot (kind : Slot)
  deriving DecidableEq

/-- The characters, folded, that a slot can start with, unless it can start with any. -/
def Slot.initials? : Slot → Option (List Char)
  | name => some "abcdefghijklmnopqrstuvwxyz_".toList
  | number => some "-0123456789".toList
  | count => some "0123456789".toList
  | quoted => some ['"']
  | phrase => some (Comparison.phrases.filterMap (·.1.toList.head?))
  | clauses | remark => none

namespace Mark

def initials? : Mark → Option (List Char)
  | letter c => some [c]
  | slot kind => kind.initials?

/-- What a mark leaves of a text that starts with it. -/
def rest? : Mark → List Char → Option (List Char)
  | letter w, c :: s => if fold c = w then some s else none
  | letter _, [] => none
  | slot kind, s => (kind.take s).map Prod.snd

/-- Whether no text starts with both marks, by its first character. -/
def disjoint (m n : Mark) : Bool :=
  m.initials?.any fun a => n.initials?.any fun b => a.all (!b.contains ·)

end Mark

/-- A form with its words spelled out. -/
abbrev Spelling := List Mark

namespace Spelling

def fits : Spelling → List Char → Bool
  | [], s => s.isEmpty
  | m :: p, s => (m.rest? s).any (fits p)

/-- Whether no text has both spellings, by the first marks in which they differ. -/
def apart : Spelling → Spelling → Bool
  | [], [] => false
  | [], m :: _ | m :: _, [] => m.initials?.isSome
  | m :: p, n :: q => if m = n then apart p q else m.disjoint n

end Spelling

/-- The spellings of a form, one for each choice of its words. -/
def Form.spellings : Form → List Spelling
  | [] => [[]]
  | .words choices :: ps =>
      choices.flatMap fun w => (spellings ps).map (w.toList.map .letter ++ ·)
  | .slot kind :: ps => (spellings ps).map (.slot kind :: ·)

namespace Slot

theorem fold_mem_letters {c : Char} (h : isNameStart c = true) :
    fold c ∈ "abcdefghijklmnopqrstuvwxyz_".toList := by
  simp only [isNameStart, Bool.or_eq_true, Bool.and_eq_true, decide_eq_true_eq, beq_iff_eq] at h
  rcases h with ⟨hl, hu⟩ | rfl
  · have hlt : (fold c).toNat < 128 := Nat.lt_of_le_of_lt (UInt32.le_iff_toNat_le.1 hu) (by decide)
    exact ascii_forall (P := fun d => 'a' ≤ d → d ≤ 'z' →
      d ∈ "abcdefghijklmnopqrstuvwxyz_".toList) (by decide) hlt hl hu
  · decide

theorem fold_mem_digits {c : Char} (h : c.isDigit = true) : fold c ∈ "0123456789".toList := by
  have hu : c ≤ '9' := by
    simp only [Char.isDigit, Bool.and_eq_true, decide_eq_true_eq] at h
    exact h.2
  have hlt : c.toNat < 128 := Nat.lt_of_le_of_lt (UInt32.le_iff_toNat_le.1 hu) (by decide)
  exact ascii_forall (P := fun d => d.isDigit = true → fold d ∈ "0123456789".toList) (by decide) hlt h

theorem fold_ne_blank {c : Char} (h : isNamePart c = true) : fold c ≠ ' ' := by
  intro he
  rcases Bool.or_eq_true_iff.1 h with h | h
  · exact absurd (he ▸ fold_mem_letters h) (by decide)
  · exact absurd (he ▸ fold_mem_digits h) (by decide)

theorem takeName_whole {s : List Char} {taken : List (List Char)}
    (h : takeName s = some (taken, [])) : ∀ c ∈ s, isNamePart c = true := by
  cases s with
  | nil => cases h
  | cons c r =>
      rw [takeName] at h
      split at h
      · next hc =>
          simp only [Option.some.injEq, Prod.mk.injEq, List.dropWhile_eq_nil_iff] at h
          rw [List.forall_mem_cons]
          exact ⟨by rw [isNamePart, hc, Bool.true_or], h.2⟩
      · cases h

theorem takeName_of_letters {s : List Char} (hne : s ≠ [])
    (h : ∀ c ∈ s, isNameStart c = true) : takeName s = some ([s], []) := by
  cases s with
  | nil => exact absurd rfl hne
  | cons c r =>
      rw [List.forall_mem_cons] at h
      have hpart : ∀ d ∈ r, isNamePart d = true := fun d hd => by
        rw [isNamePart, h.2 d hd, Bool.true_or]
      rw [takeName, if_pos h.1, List.takeWhile_eq_self_iff.2 hpart,
        List.dropWhile_eq_nil_iff.2 hpart]

theorem exists_cons_of_takeWhile {p : Char → Bool} {s : List Char}
    (h : (s.takeWhile p).isEmpty = false) : ∃ c r, s = c :: r ∧ p c = true := by
  cases s with
  | nil => cases h
  | cons c r =>
      refine ⟨c, r, rfl, ?_⟩
      cases hc : p c with
      | true => rfl
      | false => simp [hc] at h

theorem exists_cons_of_takeUnsigned {s n r : List Char} (h : takeUnsigned s = some (n, r)) :
    ∃ c t, s = c :: t ∧ c.isDigit = true := by
  refine exists_cons_of_takeWhile ?_
  cases he : (s.takeWhile Char.isDigit).isEmpty with
  | false => rfl
  | true => simp [takeUnsigned, he] at h

theorem take_initials {kind : Slot} {s : List Char} {t : List (List Char) × List Char}
    (h : kind.take s = some t) {l : List Char} (hl : kind.initials? = some l) :
    ∃ c r, s = c :: r ∧ fold c ∈ l := by
  cases kind with
  | name =>
      cases hl
      cases s with
      | nil => cases h
      | cons c r =>
          refine ⟨c, r, rfl, fold_mem_letters ?_⟩
          cases hc : isNameStart c with
          | true => rfl
          | false => simp [take, takeName, hc] at h
  | number =>
      cases hl
      simp only [take, takeNumber] at h
      split at h
      · next r => exact ⟨'-', r, rfl, by decide⟩
      · obtain ⟨⟨n, rest⟩, hu, -⟩ := Option.map_eq_some_iff.1 h
        obtain ⟨c, r, rfl, hc⟩ := exists_cons_of_takeUnsigned hu
        exact ⟨c, r, rfl, List.mem_cons_of_mem _ (fold_mem_digits hc)⟩
  | count =>
      cases hl
      simp only [take, takeCount] at h
      split at h
      · cases h
      · next he =>
          obtain ⟨c, r, rfl, hc⟩ := exists_cons_of_takeWhile (Bool.not_eq_true _ ▸ he)
          exact ⟨c, r, rfl, fold_mem_digits hc⟩
  | quoted =>
      cases hl
      simp only [take, takeQuoted] at h
      split at h
      · next r => exact ⟨'"', r, rfl, by decide⟩
      · cases h
  | phrase =>
      cases hl
      obtain ⟨p, hp, hw⟩ := List.exists_of_findSome?_eq_some h
      obtain ⟨rest, he, -⟩ := Option.map_eq_some_iff.1 hw
      cases hd : p.1.toList with
      | nil =>
          have : ∀ p ∈ Comparison.phrases, p.1.toList ≠ [] := by decide
          exact absurd hd (this p hp)
      | cons w ws =>
          rw [hd] at he
          cases s with
          | nil => cases he
          | cons c r =>
              refine ⟨c, r, rfl, List.mem_filterMap.2 ⟨p, hp, ?_⟩⟩
              have hfold := map_fold_of_eat? he
              rw [List.map_cons, List.cons_append, List.cons.injEq] at hfold
              rw [hd, hfold.1]
              rfl
  | clauses | remark => cases hl

end Slot

namespace Mark

theorem rest?_initials {m : Mark} {s r : List Char} (h : m.rest? s = some r) {l : List Char}
    (hl : m.initials? = some l) : ∃ c t, s = c :: t ∧ fold c ∈ l := by
  cases m with
  | slot kind =>
      obtain ⟨t, ht, -⟩ := Option.map_eq_some_iff.1 h
      exact Slot.take_initials ht hl
  | letter w =>
      cases hl
      cases s with
      | nil => cases h
      | cons c s =>
          refine ⟨c, s, rfl, List.mem_singleton.2 ?_⟩
          by_contra hne
          rw [rest?, if_neg hne] at h
          cases h

theorem rest?_disjoint {m n : Mark} (h : m.disjoint n = true) {s r t : List Char}
    (hm : m.rest? s = some r) : n.rest? s ≠ some t := by
  intro hn
  obtain ⟨a, ha, h⟩ := (Option.any_eq_true _ _).1 h
  obtain ⟨b, hb, h⟩ := (Option.any_eq_true _ _).1 h
  obtain ⟨c, u, rfl, hca⟩ := rest?_initials hm ha
  obtain ⟨d, v, heq, hdb⟩ := rest?_initials hn hb
  cases heq
  have := List.all_eq_true.1 h _ hca
  simp [hdb] at this

end Mark

namespace Spelling

theorem fits_cons {m : Mark} {p : Spelling} {s : List Char} :
    fits (m :: p) s = true ↔ ∃ r, m.rest? s = some r ∧ fits p r = true :=
  Option.any_eq_true _ _

theorem not_fits_nil {m : Mark} (h : m.initials?.isSome = true) (p : Spelling) :
    fits (m :: p) [] = false := by
  obtain ⟨l, hl⟩ := Option.isSome_iff_exists.1 h
  rw [← Bool.not_eq_true, fits_cons]
  rintro ⟨r, hr, -⟩
  obtain ⟨c, t, heq, -⟩ := Mark.rest?_initials hr hl
  cases heq

theorem not_fits_of_apart {p q : Spelling} (h : p.apart q = true) {s : List Char}
    (hp : p.fits s = true) : q.fits s = false := by
  rw [← Bool.not_eq_true]
  intro hq
  -- Equal marks leave the same rest, so the first two that differ start at the same character.
  fun_induction apart p q generalizing s with
  | case1 => cases h
  | case2 m q =>
      cases List.isEmpty_iff.1 hp
      rw [not_fits_nil h] at hq
      cases hq
  | case3 m p =>
      cases List.isEmpty_iff.1 hq
      rw [not_fits_nil h] at hp
      cases hp
  | case4 m p q ih =>
      obtain ⟨r, hr, hp⟩ := fits_cons.1 hp
      obtain ⟨t, ht, hq⟩ := fits_cons.1 hq
      cases hr.symm.trans ht
      exact ih h hp hq
  | case5 m p n q hne =>
      obtain ⟨r, hr, -⟩ := fits_cons.1 hp
      obtain ⟨t, ht, -⟩ := fits_cons.1 hq
      exact Mark.rest?_disjoint h hr ht

theorem fits_letters {w : List Char} {p : Spelling} {s : List Char} :
    fits (w.map .letter ++ p) s = true ↔ ∃ r, eat? w s = some r ∧ fits p r = true := by
  induction w generalizing s with
  | nil => simp [eat?]
  | cons a w ih =>
      cases s with
      | nil => simp [fits, Mark.rest?, eat?]
      | cons c s =>
          by_cases hc : fold c = a
          · simp [fits_cons, Mark.rest?, eat?, hc, ← ih]
          · simp [fits_cons, Mark.rest?, eat?, hc]

theorem map_fold_of_fits {w s : List Char} (h : fits (w.map .letter) s = true) :
    s.map fold = w := by
  rw [← List.append_nil (w.map _)] at h
  obtain ⟨r, he, hr⟩ := fits_letters.1 h
  cases List.isEmpty_iff.1 hr
  rw [map_fold_of_eat? he, List.map_nil, List.append_nil]

end Spelling

theorem Form.fits_of_read? {form : Form} {s : List Char} {captures : List (List Char)}
    (h : form.read? s = some captures) : ∃ p ∈ form.spellings, p.fits s = true := by
  induction form generalizing s captures with
  | nil =>
      rw [Form.read?] at h
      split at h
      · next he => exact ⟨[], by simp [spellings], he⟩
      · cases h
  | cons piece ps ih =>
      simp only [Form.read?, bind, Option.bind_eq_some_iff] at h
      obtain ⟨⟨taken, rest⟩, hp, more, hm, -⟩ := h
      obtain ⟨p, hmem, hfit⟩ := ih hm
      cases piece with
      | slot kind =>
          refine ⟨.slot kind :: p, List.mem_map_of_mem hmem, Spelling.fits_cons.2 ⟨rest, ?_, hfit⟩⟩
          exact Option.map_eq_some_iff.2 ⟨_, hp, rfl⟩
      | words choices =>
          obtain ⟨r, hr, heq⟩ := Option.map_eq_some_iff.1 hp
          obtain ⟨w, hw, he⟩ := List.exists_of_findSome?_eq_some hr
          cases heq
          exact ⟨w.toList.map .letter ++ p, List.mem_flatMap.2 ⟨w, hw, List.mem_map_of_mem hmem⟩,
            Spelling.fits_letters.2 ⟨rest, he, hfit⟩⟩

/-- Whether no text has both forms, as far as their first marks tell. -/
def Form.apart (f g : Form) : Bool :=
  f.spellings.all fun p => g.spellings.all fun q => p.apart q

theorem Form.read?_of_apart {f g : Form} (h : f.apart g = true) {s : List Char}
    {captures : List (List Char)} (hf : f.read? s = some captures) : g.read? s = none := by
  cases hg : g.read? s with
  | none => rfl
  | some more =>
      obtain ⟨p, hp, hfit⟩ := fits_of_read? hf
      obtain ⟨q, hq, hfit'⟩ := fits_of_read? hg
      have hpq := List.all_eq_true.1 (List.all_eq_true.1 h p hp) q hq
      rw [Spelling.not_fits_of_apart hpq hfit] at hfit'
      cases hfit'

end SentenceScript
