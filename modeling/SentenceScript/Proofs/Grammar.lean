import SentenceScript.Proofs.Catalog
import SentenceScript.Proofs.Filling

namespace SentenceScript

open Text Decimal

namespace Text

/-- One blank or more. -/
structure IsBlanks (s : List Char) : Prop where
  ne_nil : s ≠ []
  blank : ∀ c ∈ s, isBlank c = true

/-- One character or more, and no line feed. -/
structure IsRow (s : List Char) : Prop where
  ne_nil : s ≠ []
  one_row : '\n' ∉ s

theorem eq_of_fold_eq {c d : Char} (hd : d.isAlpha = false) (h : fold c = d) : c = d := by
  rw [fold] at h
  split at h
  · subst h
    cases hd
  · split at h
    · subst h
      cases hd
    · exact (toLower_eq_iff hd).1 h

theorem isBlank_fold (c : Char) : isBlank (fold c) = isBlank c := by
  rw [fold]
  split
  · next h => subst h; rfl
  · split
    · next h => subst h; rfl
    · exact isBlank_toLower c

theorem exists_of_eat? {w s r : List Char} (h : eat? w s = some r) :
    ∃ p, s = p ++ r ∧ p.map fold = w := by
  induction w generalizing s with
  | nil =>
      cases h
      exact ⟨[], rfl, rfl⟩
  | cons a w ih =>
      cases s with
      | nil => cases h
      | cons c s =>
          rw [eat?] at h
          split at h
          · next hc =>
              obtain ⟨p, rfl, rfl⟩ := ih h
              exact ⟨c :: p, rfl, by rw [List.map_cons, hc]⟩
          · cases h

theorem dropBlanks_head (s : List Char) : ∀ c ∈ (dropBlanks s).head?, isBlank c = false := by
  intro c hc
  have h := List.head?_dropWhile_not isBlank s
  rw [dropBlanks, Option.mem_def] at hc
  rwa [hc] at h

end Text

namespace Slot

/-- The word `otherwise`, up to folding, between blanks, and then a clause. -/
def Otherwise (s no : List Char) : Prop :=
  ∃ before word after, IsBlanks before ∧ word.map fold = "otherwise".toList ∧ IsBlanks after ∧
    s = before ++ (word ++ (after ++ no))

/-- A text that is two clauses, the second behind the word `otherwise`. -/
structure Parted (s yes no : List Char) : Prop where
  yes_ne_nil : yes ≠ []
  no_ne_nil : no ≠ []
  joined : ∃ rest, s = yes ++ rest ∧ Otherwise rest no

/-- Of all ways to part a text into two rows, the one with the shortest first clause, and then with
the shortest second one. -/
structure Divided (s yes no : List Char) : Prop extends Parted s yes no where
  yes_row : '\n' ∉ yes
  no_row : '\n' ∉ no
  least : ∀ yes' no', Parted s yes' no' → '\n' ∉ yes' → '\n' ∉ no' →
    yes.length < yes'.length ∨ (yes = yes' ∧ no.length ≤ no'.length)

/-- The texts that a slot stands for, and what is captured of them. -/
inductive Accepts : Slot → List Char → List (List Char) → Prop
  | name {s : List Char} (h : IsName s) : Accepts name s [s]
  | number (x : Literal) : Accepts number x.chars [x.chars]
  | count {s : List Char} (hne : s ≠ []) (hd : ∀ c ∈ s, c.isDigit = true) : Accepts count s [s]
  | quoted (q : Quotation) : Accepts quoted ('"' :: (q.chars ++ ['"'])) [q.chars]
  | phrase {c : Comparison} {w : String} {s : List Char} (hw : w ∈ c.words)
      (hs : s.map fold = w.toList) : Accepts phrase s [s]
  | clause {s : List Char} (hs : IsRow s) (hp : ∀ yes no, ¬ Parted s yes no) :
      Accepts clauses s [s]
  | clauses {s yes no : List Char} (h : Divided s yes no) : Accepts clauses s [yes, no]
  | remark {blanks s : List Char} (hb : ∀ c ∈ blanks, isBlank c = true)
      (hh : ∀ c ∈ s.head?, isBlank c = false) (hs : '\n' ∉ s) : Accepts remark (blanks ++ s) [s]

end Slot

/-- A text in a form: of its words some choice in letters that fold onto it, and in its slots texts
that these accept. -/
inductive Form.Matches : Form → List Char → List (List Char) → Prop
  | nil : Matches [] [] []
  | words {choices : List String} {form : Form} {rest : List Char} {captures : List (List Char)}
      (w : String) (letters : List Char) (hw : w ∈ choices) (hl : letters.map fold = w.toList)
      (h : Matches form rest captures) :
      Matches (.words choices :: form) (letters ++ rest) captures
  | slot {kind : Slot} {form : Form} {text rest : List Char} {taken captures : List (List Char)}
      (ht : kind.Accepts text taken) (h : Matches form rest captures) :
      Matches (.slot kind :: form) (text ++ rest) (taken ++ captures)

def Shape.Matches (shape : Shape) (s : List Char) (captures : List (List Char)) : Prop :=
  ∃ form ∈ shape.forms, form.Matches s captures

namespace Slot

variable {s yes no r : List Char}

theorem wholeRow?_eq_some_iff : wholeRow? s = some r ↔ r = s ∧ IsRow s := by
  rw [wholeRow?]
  split
  · next h =>
      constructor
      · intro hn
        cases hn
      · rintro ⟨-, hr⟩
        simp [hr.ne_nil, hr.one_row] at h
  · next h =>
      simp only [Bool.or_eq_true, List.isEmpty_iff, List.contains_iff_mem, not_or] at h
      constructor
      · intro he
        cases he
        exact ⟨rfl, h.1, h.2⟩
      · rintro ⟨rfl, -⟩
        rfl

theorem blanksThenRow?_sound (h : blanksThenRow? s = some r) :
    ∃ blanks, IsBlanks blanks ∧ IsRow r ∧ s = blanks ++ r := by
  induction s with
  | nil => cases h
  | cons c s ih =>
      rw [blanksThenRow?] at h
      split at h
      · next hc =>
          rcases Option.or_eq_some_iff.1 h with h | ⟨-, h⟩
          · obtain ⟨blanks, hb, hr, rfl⟩ := ih h
            exact ⟨c :: blanks, ⟨List.cons_ne_nil _ _, List.forall_mem_cons.2 ⟨hc, hb.blank⟩⟩, hr, rfl⟩
          · obtain ⟨rfl, hr⟩ := wholeRow?_eq_some_iff.1 h
            exact ⟨[c], ⟨List.cons_ne_nil _ _, List.forall_mem_singleton.2 hc⟩, hr, rfl⟩
      · cases h

/-- No row behind blanks is shorter than the one that is read. -/
theorem blanksThenRow?_least {blanks : List Char} (hb : IsBlanks blanks) (hr : IsRow r) :
    ∃ found, blanksThenRow? (blanks ++ r) = some found ∧ found.length ≤ r.length := by
  induction blanks with
  | nil => exact absurd rfl hb.ne_nil
  | cons c blanks ih =>
      obtain ⟨hc, hmore⟩ := List.forall_mem_cons.1 hb.blank
      rw [List.cons_append, blanksThenRow?, if_pos hc]
      by_cases hne : blanks = []
      · subst hne
        have hwhole : wholeRow? r = some r := wholeRow?_eq_some_iff.2 ⟨rfl, hr⟩
        rw [List.nil_append, hwhole]
        cases hf : blanksThenRow? r with
        | none => exact ⟨r, rfl, Nat.le_refl _⟩
        | some found => exact ⟨found, rfl, Nat.le_of_lt (blanksThenRow?_length hf)⟩
      · obtain ⟨found, hf, hle⟩ := ih ⟨hne, hmore⟩
        exact ⟨found, by rw [hf, Option.some_or], hle⟩

theorem otherwise?_sound (h : otherwise? s = some no) : Otherwise s no ∧ IsRow no := by
  cases s with
  | nil => cases h
  | cons c s =>
      rw [otherwise?] at h
      split at h
      · next hc =>
          obtain ⟨t, ht, hr⟩ := Option.bind_eq_some_iff.1 h
          obtain ⟨word, hs, hw⟩ := exists_of_eat? ht
          obtain ⟨after, ha, hrow, rfl⟩ := blanksThenRow?_sound hr
          have hb : IsBlanks (c :: s.takeWhile isBlank) := by
            refine ⟨List.cons_ne_nil _ _, List.forall_mem_cons.2 ⟨hc, fun d hd => ?_⟩⟩
            exact List.mem_takeWhile_imp hd
          refine ⟨⟨_, word, after, hb, hw, ha, ?_⟩, hrow⟩
          rw [← hs, dropBlanks, List.cons_append, List.takeWhile_append_dropWhile]
      · cases h

theorem otherwise?_least (h : Otherwise s no) (hr : IsRow no) :
    ∃ found, otherwise? s = some found ∧ found.length ≤ no.length := by
  obtain ⟨before, word, after, hb, hw, ha, rfl⟩ := h
  cases before with
  | nil => exact absurd rfl hb.ne_nil
  | cons c before =>
      obtain ⟨hc, hmore⟩ := List.forall_mem_cons.1 hb.blank
      have hhead : ∀ d ∈ (word ++ (after ++ no)).head?, isBlank d = false := by
        cases word with
        | nil => cases hw
        | cons d word =>
            rintro _ ⟨⟩
            rw [← isBlank_fold, (List.cons.inj hw).1]
            rfl
      have hdrop : dropBlanks (before ++ (word ++ (after ++ no))) = word ++ (after ++ no) :=
        dropWhile_row hmore hhead
      rw [List.cons_append, otherwise?, if_pos hc, hdrop, eat?_append hw, Option.bind_some]
      exact blanksThenRow?_least ha hr

theorem splitClauses_sound (h : splitClauses s = some (yes, some no)) :
    Parted s yes no ∧ '\n' ∉ yes ∧ '\n' ∉ no := by
  induction s generalizing yes with
  | nil => cases h
  | cons c s ih =>
      rw [splitClauses] at h
      split at h
      · cases h
      · next hc =>
          split at h
          · next hno =>
              cases h
              obtain ⟨ho, hrow⟩ := otherwise?_sound hno
              refine ⟨⟨List.cons_ne_nil _ _, hrow.ne_nil, s, rfl, ho⟩, ?_, hrow.one_row⟩
              rw [List.mem_singleton]
              exact Ne.symm hc
          · split at h
            · cases h
            · obtain ⟨⟨y, n⟩, hs, heq⟩ := Option.map_eq_some_iff.1 h
              cases heq
              obtain ⟨⟨hy, hn, rest, rfl, ho⟩, hyrow, hnrow⟩ := ih hs
              refine ⟨⟨List.cons_ne_nil _ _, hn, rest, rfl, ho⟩, ?_, hnrow⟩
              rw [List.mem_cons, not_or]
              exact ⟨Ne.symm hc, hyrow⟩

theorem splitClauses_whole (h : splitClauses s = some (yes, none)) : yes = s ∧ IsRow s := by
  induction s generalizing yes with
  | nil => cases h
  | cons c s ih =>
      rw [splitClauses] at h
      split at h
      · cases h
      · next hc =>
          split at h
          · cases h
          · split at h
            · next he =>
                cases h
                cases List.isEmpty_iff.1 he
                exact ⟨rfl, List.cons_ne_nil _ _, by rw [List.mem_singleton]; exact Ne.symm hc⟩
            · obtain ⟨⟨y, n⟩, hs, heq⟩ := Option.map_eq_some_iff.1 h
              cases heq
              obtain ⟨rfl, hrow⟩ := ih hs
              exact ⟨rfl, List.cons_ne_nil _ _, by simp [Ne.symm hc, hrow.one_row]⟩

/-- Every way to part a text into two rows is no better than the one that is read. -/
theorem splitClauses_least (h : Parted s yes no) (hy : '\n' ∉ yes) (hn : '\n' ∉ no) :
    ∃ y n, splitClauses s = some (y, some n) ∧
      (y.length < yes.length ∨ (y = yes ∧ n.length ≤ no.length)) := by
  obtain ⟨hne, hno, rest, rfl, ho⟩ := h
  induction yes with
  | nil => exact absurd rfl hne
  | cons c yes ih =>
      rw [List.mem_cons, not_or] at hy
      rw [List.cons_append, splitClauses, if_neg (Ne.symm hy.1)]
      by_cases he : yes = []
      · subst he
        obtain ⟨found, hf, hle⟩ := otherwise?_least ho ⟨hno, hn⟩
        rw [List.nil_append, hf]
        exact ⟨[c], found, rfl, .inr ⟨rfl, hle⟩⟩
      · cases hf : otherwise? (yes ++ rest) with
        | some found =>
            refine ⟨[c], found, rfl, .inl ?_⟩
            have := List.length_pos_of_ne_nil he
            simp only [List.length_cons, List.length_nil]
            omega
        | none =>
            obtain ⟨y, n, hs, hle⟩ := ih hy.2 he
            have hmore : (yes ++ rest).isEmpty = false := by simp [he]
            refine ⟨c :: y, n, by simp [hmore, hs], ?_⟩
            rcases hle with hlt | ⟨rfl, hle⟩
            · exact .inl (Nat.succ_lt_succ hlt)
            · exact .inr ⟨rfl, hle⟩

theorem splitClauses_isSome (h : IsRow s) : (splitClauses s).isSome = true := by
  obtain ⟨hne, hrow⟩ := h
  induction s with
  | nil => exact absurd rfl hne
  | cons c s ih =>
      rw [List.mem_cons, not_or] at hrow
      rw [splitClauses, if_neg (Ne.symm hrow.1)]
      cases otherwise? s with
      | some no => rfl
      | none =>
          by_cases he : s = []
          · subst he
            rfl
          · simp [he, ih he hrow.2]

theorem Parted.suffix (h : Parted s yes no) : no <:+ s := by
  obtain ⟨-, -, rest, rfl, before, word, after, -, -, -, rfl⟩ := h
  exact ⟨yes ++ (before ++ (word ++ after)), by simp⟩

theorem Parted.one_row (h : Parted s yes no) (hs : '\n' ∉ s) : '\n' ∉ yes ∧ '\n' ∉ no := by
  obtain ⟨rest, hjoin, -⟩ := h.joined
  exact ⟨fun hm => hs (hjoin ▸ List.mem_append_left _ hm), fun hm => hs (h.suffix.subset hm)⟩

theorem accepts_of_takeClauses {captures : List (List Char)}
    (h : takeClauses s = some (captures, r)) : r = [] ∧ Accepts clauses s captures := by
  obtain ⟨⟨y, n⟩, hs, heq⟩ := Option.map_eq_some_iff.1 h
  cases heq
  refine ⟨rfl, ?_⟩
  cases n with
  | none =>
      obtain ⟨rfl, hrow⟩ := splitClauses_whole hs
      refine .clause hrow fun yes no hp => ?_
      obtain ⟨hy, hn⟩ := hp.one_row hrow.one_row
      obtain ⟨y', n', hs', -⟩ := splitClauses_least hp hy hn
      cases hs.symm.trans hs'
  | some n =>
      obtain ⟨hp, hy, hn⟩ := splitClauses_sound hs
      refine .clauses ⟨hp, hy, hn, fun yes no hp' hy' hn' => ?_⟩
      obtain ⟨y', n', hs', hle⟩ := splitClauses_least hp' hy' hn'
      cases hs.symm.trans hs'
      exact hle

theorem takeClauses_of_accepts {captures : List (List Char)} (h : Accepts clauses s captures) :
    takeClauses s = some (captures, []) := by
  cases h with
  | clause hrow hp =>
      obtain ⟨⟨y, n⟩, hs⟩ := Option.isSome_iff_exists.1 (splitClauses_isSome hrow)
      cases n with
      | some n => exact absurd (splitClauses_sound hs).1 (hp y n)
      | none =>
          obtain ⟨rfl, -⟩ := splitClauses_whole hs
          rw [takeClauses, hs]
          rfl
  | @clauses _ yes no h =>
      obtain ⟨y, n, hs, hle⟩ := splitClauses_least h.toParted h.yes_row h.no_row
      obtain ⟨hp, hy, hn⟩ := splitClauses_sound hs
      have hge := h.least y n hp hy hn
      have hyes : y = yes ∧ n.length = no.length := by
        rcases hle with hlt | ⟨rfl, hle⟩
        · rcases hge with hgt | ⟨rfl, -⟩ <;> omega
        · rcases hge with hgt | ⟨-, hge⟩
          · omega
          · exact ⟨rfl, by omega⟩
      obtain ⟨rfl, hlen⟩ := hyes
      have hno : n = no :=
        (List.suffix_of_suffix_length_le hp.suffix h.suffix hlen.le).eq_of_length hlen
      rw [takeClauses, hs, hno]
      rfl

theorem takeUnsigned_sound {n : List Char} (h : takeUnsigned s = some (n, r)) :
    ∃ whole fraction, Digits whole fraction ∧ n = whole ++ point fraction ∧ s = n ++ r := by
  have hd : ∀ c ∈ s.takeWhile Char.isDigit, c.isDigit = true := fun c hc => List.mem_takeWhile_imp hc
  have hs : s.takeWhile Char.isDigit ++ s.dropWhile Char.isDigit = s := List.takeWhile_append_dropWhile
  simp only [takeUnsigned] at h
  split at h
  · cases h
  · next hne =>
      rw [List.isEmpty_iff] at hne
      split at h
      · next t ht =>
          split at h
          · cases h
            exact ⟨_, [], ⟨hd, hne, List.forall_mem_nil _⟩, by simp [point], by rw [← ht, hs]⟩
          · next hf =>
              cases h
              refine ⟨_, t.takeWhile Char.isDigit, ⟨hd, hne, fun c hc => List.mem_takeWhile_imp hc⟩,
                by rw [point, if_neg hf], ?_⟩
              rw [List.append_assoc, List.cons_append, List.takeWhile_append_dropWhile, ← ht, hs]
      · cases h
        exact ⟨_, [], ⟨hd, hne, List.forall_mem_nil _⟩, by simp [point], hs.symm⟩

/-- The number that these digits write. -/
def literal (negative : Bool) {whole fraction : List Char} (h : Digits whole fraction) : Literal where
  negative := negative
  whole := whole
  fraction := fraction
  whole_ne_nil := h.whole_ne_nil
  digits := by
    intro c hc
    rcases List.mem_append.1 hc with hc | hc
    · exact h.whole_digits c hc
    · exact h.fraction_digits c hc

theorem accepts_of_takeNumber {captures : List (List Char)}
    (h : takeNumber s = some (captures, r)) :
    ∃ text, s = text ++ r ∧ Accepts number text captures := by
  rw [takeNumber.eq_def] at h
  split at h
  · obtain ⟨⟨n, rest⟩, hu, heq⟩ := Option.map_eq_some_iff.1 h
    cases heq
    obtain ⟨whole, fraction, hd, rfl, rfl⟩ := takeUnsigned_sound hu
    exact ⟨_, rfl, .number (literal true hd)⟩
  · obtain ⟨⟨n, rest⟩, hu, heq⟩ := Option.map_eq_some_iff.1 h
    cases heq
    obtain ⟨whole, fraction, hd, rfl, rfl⟩ := takeUnsigned_sound hu
    exact ⟨_, rfl, .number (literal false hd)⟩

theorem accepts_of_takeQuoted {captures : List (List Char)}
    (h : takeQuoted s = some (captures, r)) :
    ∃ text, s = text ++ r ∧ Accepts quoted text captures := by
  rw [takeQuoted.eq_def] at h
  split at h
  · next t =>
      split at h
      · next rest hrest =>
          cases h
          have hq : '"' ∉ t.takeWhile (· != '"') := fun hm =>
            absurd (List.mem_takeWhile_imp hm) (by decide)
          refine ⟨_, ?_, .quoted ⟨_, hq⟩⟩
          rw [List.cons_append, List.append_assoc, List.singleton_append, ← hrest,
            List.takeWhile_append_dropWhile]
      · cases h
  · cases h

theorem accepts_remark (h : '\n' ∉ dropBlanks s) : Accepts remark s [dropBlanks s] := by
  have ha : Accepts remark (s.takeWhile isBlank ++ dropBlanks s) [dropBlanks s] :=
    .remark (fun c hc => List.mem_takeWhile_imp hc) (dropBlanks_head s) h
  rwa [dropBlanks, List.takeWhile_append_dropWhile] at ha

/-- What a slot takes, it accepts. -/
theorem accepts_of_take {kind : Slot} {captures : List (List Char)}
    (h : kind.take s = some (captures, r)) :
    ∃ text, s = text ++ r ∧ kind.Accepts text captures := by
  cases kind with
  | name =>
      cases s with
      | nil => cases h
      | cons c s =>
          rw [take, takeName] at h
          split at h
          · next hc =>
              cases h
              refine ⟨c :: s.takeWhile isNamePart, ?_, .name ⟨c, _, rfl, hc, fun d hd => ?_⟩⟩
              · rw [List.cons_append, List.takeWhile_append_dropWhile]
              · exact List.mem_takeWhile_imp hd
          · cases h
  | number => exact accepts_of_takeNumber h
  | count =>
      rw [take, takeCount] at h
      split at h
      · cases h
      · next hne =>
          cases h
          rw [List.isEmpty_iff] at hne
          refine ⟨_, List.takeWhile_append_dropWhile.symm, .count hne fun c hc => ?_⟩
          exact List.mem_takeWhile_imp hc
  | quoted => exact accepts_of_takeQuoted h
  | phrase =>
      obtain ⟨a, ha, ht⟩ := List.exists_of_findSome?_eq_some h
      obtain ⟨rest, he, heq⟩ := Option.map_eq_some_iff.1 ht
      cases heq
      obtain ⟨p, rfl, hp⟩ := exists_of_eat? he
      have hlen : a.1.length = p.length := by rw [← String.length_toList, ← hp, List.length_map]
      rw [hlen, List.take_left]
      exact ⟨p, rfl, .phrase (Comparison.mem_phrases_iff.1 ha) hp⟩
  | clauses =>
      obtain ⟨rfl, ha⟩ := accepts_of_takeClauses h
      exact ⟨s, (List.append_nil s).symm, ha⟩
  | remark =>
      rw [take, takeRemark] at h
      split at h
      · cases h
      · next hrow =>
          cases h
          rw [List.contains_iff_mem] at hrow
          exact ⟨s, (List.append_nil s).symm, accepts_remark hrow⟩

theorem accepts_of_isNumeral {x : Float} (h : IsNumeral s x) : Accepts number s [s] := by
  have htake : number.take s = some ([s], []) := h.take_eq
  obtain ⟨text, hs, ha⟩ := accepts_of_take htake
  rw [List.append_nil] at hs
  rwa [← hs] at ha

/-- Whether a slot takes all that is left of a line. -/
def takesRest : Slot → Bool
  | clauses | remark => true
  | name | number | count | quoted | phrase => false

/-- What a slot accepts, it takes, unless it could take more: what follows is nothing, a blank or a
comma. -/
theorem Accepts.take {kind : Slot} {text rest : List Char} {captures : List (List Char)}
    (h : kind.Accepts text captures) (hr : ∀ c ∈ rest.head?, c = ' ' ∨ c = ',')
    (hl : kind.takesRest = true → rest = []) : kind.take (text ++ rest) = some (captures, rest) := by
  have hends {p : Char → Bool} (hb : p ' ' = false) (hc : p ',' = false) :
      ∀ c ∈ rest.head?, p c = false := by
    intro c hm
    rcases hr c hm with rfl | rfl
    · exact hb
    · exact hc
  cases h with
  | name h => exact takeName_append h (hends rfl rfl)
  | number x =>
      refine x.isNumeral.take_append rest fun c hm => ?_
      rcases hr c hm with rfl | rfl
      · exact ⟨rfl, by decide⟩
      · exact ⟨rfl, by decide⟩
  | count hne hd => exact takeCount_append hne hd (hends rfl rfl)
  | quoted q =>
      rw [List.cons_append, List.append_assoc]
      exact takeQuoted_append q.no_quote rest
  | phrase hw hs => exact takePhrase_append (Comparison.mem_phrases_iff.2 hw) hs rest
  | clause hs hp =>
      cases hl rfl
      rw [List.append_nil]
      exact takeClauses_of_accepts (.clause hs hp)
  | clauses h =>
      cases hl rfl
      rw [List.append_nil]
      exact takeClauses_of_accepts (.clauses h)
  | remark hb hh hs =>
      cases hl rfl
      rw [List.append_nil, Slot.take, takeRemark, dropBlanks, dropWhile_row hb hh,
        if_neg (by rwa [List.contains_iff_mem])]

end Slot

namespace Form

/-- The slots of a form, in their order. -/
def slots : Form → List Slot
  | [] => []
  | .words _ :: ps => slots ps
  | .slot kind :: ps => kind :: slots ps

/-- Whether what a form goes on with starts with a blank or a comma, if it goes on. -/
def stops : Form → Bool
  | [] => true
  | .words choices :: _ =>
      choices.all fun w => w.toList.head? == some ' ' || w.toList.head? == some ','
  | .slot _ :: _ => false

/-- Whether a text in the form is read in one way only: where words are chosen, no choice before
the right one starts the text, and every slot ends where it can take no more. -/
def clear : Form → Bool
  | [] => true
  | .words choices :: ps =>
      decide (choices.Pairwise fun w v => mayStart w.toList (.words [v] :: ps) = false) && clear ps
  | .slot kind :: ps => (!kind.takesRest || ps.isEmpty) && stops ps && clear ps

variable {form : Form} {s : List Char} {captures : List (List Char)}

theorem Matches.head_of_stops (h : form.Matches s captures) (hs : form.stops = true) :
    ∀ c ∈ s.head?, c = ' ' ∨ c = ',' := by
  cases h with
  | nil =>
      intro c hc
      cases hc
  | slot => cases hs
  | words w letters hw hl h =>
      have hhead := List.all_eq_true.1 hs w hw
      simp only [Bool.or_eq_true, beq_iff_eq, ← hl] at hhead
      cases letters with
      | nil => rcases hhead with hh | hh <;> cases hh
      | cons d letters =>
          rintro _ ⟨⟩
          exact hhead.imp (fun hh => eq_of_fold_eq rfl (Option.some.inj hh))
            fun hh => eq_of_fold_eq rfl (Option.some.inj hh)

/-- The right choice of words is found, since none before it starts the text. -/
theorem read?_choice {choices : List String} {w : String} {letters : List Char}
    {captures : List (List Char)} (hw : w ∈ choices) (hl : letters.map fold = w.toList)
    (hc : choices.Pairwise fun w v => mayStart w.toList (.words [v] :: form) = false)
    (h : form.read? s = some captures) :
    Form.read? (.words choices :: form) (letters ++ s) = some captures := by
  have heat : eat? w.toList (letters ++ s) = some s := eat?_append hl s
  have hfind : choices.findSome? (fun v => eat? v.toList (letters ++ s)) = some s := by
    induction choices with
    | nil => cases hw
    | cons v choices ih =>
        rw [List.pairwise_cons] at hc
        rw [List.findSome?_cons]
        by_cases hv : v = w
        · rw [hv, heat]
        · have hmem : w ∈ choices := (List.mem_cons.1 hw).resolve_left (Ne.symm hv)
          have hnone : eat? v.toList (letters ++ s) = none := by
            refine eat?_eq_none rfl fun hp => ?_
            have hone : Form.read? (.words [w] :: form) (letters ++ s) = some captures := by
              simp only [Form.read?, Piece.take, List.findSome?_cons, heat, Option.map_some, bind,
                Option.bind_some, h]
              rfl
            exact absurd (mayStart_of_read? hone hp) (by rw [hc.1 w hmem]; decide)
          rw [hnone]
          exact ih hmem hc.2
  simp only [Form.read?, Piece.take, hfind, Option.map_some, bind, Option.bind_some, h]
  rfl

theorem matches_of_read? (h : form.read? s = some captures) : form.Matches s captures := by
  induction form generalizing s captures with
  | nil =>
      rw [Form.read?] at h
      split at h
      · next he =>
          cases h
          cases List.isEmpty_iff.1 he
          exact .nil
      · cases h
  | cons piece ps ih =>
      simp only [Form.read?, bind, Option.bind_eq_some_iff] at h
      obtain ⟨⟨taken, rest⟩, hp, more, hm, heq⟩ := h
      cases heq
      cases piece with
      | slot kind =>
          obtain ⟨text, rfl, ha⟩ := Slot.accepts_of_take hp
          exact .slot ha (ih hm)
      | words choices =>
          obtain ⟨r, hr, heq⟩ := Option.map_eq_some_iff.1 hp
          obtain ⟨w, hw, he⟩ := List.exists_of_findSome?_eq_some hr
          cases heq
          obtain ⟨letters, rfl, hl⟩ := exists_of_eat? he
          exact .words w letters hw hl (ih hm)

theorem Matches.read? (h : form.Matches s captures) (hc : form.clear = true) :
    form.read? s = some captures := by
  induction h with
  | nil => rfl
  | words w letters hw hl h ih =>
      rw [clear, Bool.and_eq_true, decide_eq_true_eq] at hc
      exact read?_choice hw hl hc.1 (ih hc.2)
  | @slot kind ps text rest taken captures ht h ih =>
      simp only [clear, Bool.and_eq_true] at hc
      obtain ⟨⟨hlast, hstops⟩, hc⟩ := hc
      have hnil : kind.takesRest = true → rest = [] := by
        intro hk
        have hempty : ps = [] := by simpa [hk] using hlast
        subst hempty
        cases h
        rfl
      simp only [Form.read?, Piece.take, ht.take (h.head_of_stops hstops) hnil, ih hc, bind,
        Option.bind_some]
      rfl

end Form

namespace Shape

variable {shape : Shape} {s : List Char} {captures : List (List Char)}

/-- Every form is read in one way only, and of two forms of one shape no text has both. -/
theorem forms_clear (shape : Shape) : (shape.forms.Pairwise fun f g => g.apart f = true) ∧
    ∀ form ∈ shape.forms, form.clear = true := by
  cases shape <;> decide +kernel

theorem read?_of_form {forms : List Form} {form : Form} {captures : List (List Char)}
    (hp : forms.Pairwise fun f g => g.apart f = true) (hf : form ∈ forms)
    (h : form.read? s = some captures) : forms.findSome? (Form.read? · s) = some captures := by
  induction forms with
  | nil => cases hf
  | cons f forms ih =>
      rw [List.pairwise_cons] at hp
      rw [List.findSome?_cons]
      rcases List.mem_cons.1 hf with rfl | hm
      · rw [h]
      · rw [Form.read?_of_apart (hp.1 form hm) h]
        exact ih hp.2 hm

/-- A line is read in a shape if and only if it is in the shape's grammar, and then with the captures
that the grammar gives. -/
theorem read?_eq_some_iff : shape.read? s = some captures ↔ shape.Matches s captures := by
  constructor
  · intro h
    obtain ⟨form, hf, hr⟩ := List.exists_of_findSome?_eq_some h
    exact ⟨form, hf, Form.matches_of_read? hr⟩
  · rintro ⟨form, hf, hm⟩
    exact read?_of_form (forms_clear shape).1 hf (hm.read? ((forms_clear shape).2 form hf))

theorem fits_iff {text : String} :
    shape.fits text = true ↔ ∃ captures, shape.Matches text.toList captures := by
  rw [fits, Option.isSome_iff_exists]
  exact exists_congr fun captures => read?_eq_some_iff

/-- A text that is in the grammar of a shape is in no other's, but for the three shapes of the two
texts that have two. -/
theorem Matches.unique {other : Shape} {captures' : List (List Char)}
    (h : shape.Matches s captures) (h' : other.Matches s captures')
    (hs : shape ∉ [showTasks, showVariable, showResponse]) : other = shape := by
  have hread : (shape.read? s).isSome = true := by rw [read?_eq_some_iff.2 h]; rfl
  have hread' : (other.read? s).isSome = true := by rw [read?_eq_some_iff.2 h']; rfl
  by_contra hne
  apply hs
  rcases shared_of_read? (Ne.symm hne) hread hread' with ⟨-, hp⟩ | ⟨-, hp⟩
  · have hm : shape ∈ [showTasks, showVariable] := hp.subset List.mem_cons_self
    simp only [List.mem_cons, List.not_mem_nil, or_false] at hm ⊢
    exact hm.imp_right .inl
  · exact List.mem_cons_of_mem _ (hp.subset List.mem_cons_self)

end Shape

namespace Sentence

variable {shape : Shape} {s : List Char} {captures : List (List Char)}

theorem commandIn_of_earliest (hr : shape.read? s = some captures)
    (h : ∀ other : Shape, (other.read? s).isSome = true → other ∉ Shape.catalog.takeWhile (· != shape)) :
    commandIn Shape.catalog s = (build? shape captures).getD .unknown := by
  refine commandIn_of_first (fun other ho => ?_) (Shape.mem_catalog shape) hr
  exact Option.not_isSome_iff_eq_none.1 fun hs => h other hs ho

theorem commandIn_of_matches (h : shape.Matches s captures)
    (hs : shape ∉ [Shape.showTasks, .showVariable, .showResponse]) :
    commandIn Shape.catalog s = (build? shape captures).getD .unknown := by
  refine commandIn_of_earliest (Shape.read?_eq_some_iff.2 h) fun other ho hm => ?_
  obtain ⟨captures', hread⟩ := Option.isSome_iff_exists.1 ho
  cases h.unique (Shape.read?_eq_some_iff.1 hread) hs
  exact absurd (List.mem_takeWhile_imp hm) (by simp)

/-- A command that is not unknown is built from the captures of some shape. -/
theorem exists_of_commandIn {command : Command} (h : commandIn Shape.catalog s = command)
    (hne : command ≠ .unknown) :
    ∃ shape captures, Shape.Matches shape s captures ∧ build? shape captures = some command := by
  rw [commandIn] at h
  split at h
  · next shape captures hfind =>
      obtain ⟨a, -, ha⟩ := List.exists_of_findSome?_eq_some hfind
      obtain ⟨x, hread, heq⟩ := Option.map_eq_some_iff.1 ha
      cases heq
      refine ⟨shape, captures, Shape.read?_eq_some_iff.1 hread, ?_⟩
      cases hb : build? shape captures with
      | none =>
          rw [hb] at h
          exact absurd h.symm hne
      | some c =>
          rw [hb] at h
          exact congrArg some h
  · exact absurd h.symm hne

end Sentence

end SentenceScript
