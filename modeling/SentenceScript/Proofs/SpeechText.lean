import SentenceScript.Proofs.Phrasing

namespace SentenceScript.Speech

open Text

/-- No period stands directly before a blank. -/
def Unbroken (s : List Char) : Prop := s.IsChain fun c d => c = '.' → isBlank d = false

instance : DecidablePred Unbroken := fun s =>
  inferInstanceAs (Decidable (s.IsChain fun c d => c = '.' → isBlank d = false))

theorem unbroken_of_no_blank {s : List Char} (h : ∀ c ∈ s, isBlank c = false) : Unbroken s := by
  induction s with
  | nil => exact .nil
  | cons c s ih =>
      have hs := ih fun d hd => h d (List.mem_cons_of_mem c hd)
      refine List.isChain_cons.2 ⟨fun d hd _ => ?_, hs⟩
      exact h d (List.mem_cons_of_mem c (List.mem_of_mem_head? hd))

theorem Unbroken.append {s rest : List Char} (hs : Unbroken s) (hl : s.getLast? ≠ some '.')
    (hr : Unbroken rest) : Unbroken (s ++ rest) := by
  refine List.isChain_append.2 ⟨hs, hr, ?_⟩
  rintro c hc d - rfl
  exact absurd hc hl

theorem Unbroken.append_of_not_mem {s rest : List Char} (hs : '.' ∉ s) (hr : Unbroken rest) :
    Unbroken (s ++ rest) := by
  induction s with
  | nil => exact hr
  | cons c s ih =>
      rw [List.mem_cons, not_or] at hs
      exact List.isChain_cons.2 ⟨fun d _ hc => absurd hc.symm hs.1, ih hs.2⟩

/-- A quotation mark is not a blank, so a text may end with a period where it is quoted. -/
theorem Unbroken.quoted {t rest : List Char} (ht : Unbroken t) (hr : Unbroken rest) :
    Unbroken ('"' :: (t ++ '"' :: rest)) := by
  have hclose : Unbroken (['"'] ++ rest) := .append_of_not_mem (by decide) hr
  have hopen : Unbroken (t ++ '"' :: rest) := by
    refine List.isChain_append.2 ⟨ht, hclose, fun c _ d hd _ => ?_⟩
    cases hd
    rfl
  exact Unbroken.append_of_not_mem (by decide : '.' ∉ ['"']) hopen

theorem cut_append {s rest piece : List Char} {pieces : List (List Char)} (hs : Unbroken s)
    (hl : s.getLast? ≠ some '.') (hr : cut false rest = piece :: pieces) :
    cut false (s ++ rest) = (s ++ piece) :: pieces := by
  induction s with
  | nil => exact hr
  | cons c s ih =>
      obtain ⟨hhead, hs⟩ := List.isChain_cons.1 hs
      have htail : s.getLast? ≠ some '.' := by
        cases s with
        | nil => nofun
        | cons d s => rwa [List.getLast?_cons_cons] at hl
      have hbreak : (c == '.' && startsBlank (s ++ rest)) = false := by
        rw [Bool.and_eq_false_imp, beq_iff_eq]
        rintro rfl
        cases s with
        | nil => exact absurd rfl hl
        | cons d s => exact hhead d rfl rfl
      rw [List.cons_append, cut, Bool.false_and, hbreak, ih hs htail]
      rfl

theorem cut_true {s : List Char} (h : ∀ c ∈ s.head?, isBlank c = false) :
    cut true s = cut false s := by
  cases s with
  | nil => rfl
  | cons c s => rw [cut, cut, h c rfl, Bool.and_false, Bool.and_false]

/-- The words of a sentence, that is, the sentence without its period. -/
structure Spoken (s : List Char) : Prop where
  ne_nil : s ≠ []
  starts : ∀ c ∈ s.head?, isBlank c = false
  ends : ∀ c ∈ s.getLast?, isBlank c = false
  no_period : s.getLast? ≠ some '.'
  unbroken : Unbroken s
  isLine : IsLine (lowerUnquoted false s)

theorem Spoken.strip_eq {s : List Char} (h : Spoken s) : strip s = s :=
  strip_eq_self h.starts h.ends

/-- The line that a piece stands for. -/
def trimPiece (s : List Char) : List Char := strip (dropPeriod (strip s))

theorem Spoken.trimPiece_eq {s : List Char} (h : Spoken s) : trimPiece s = s := by
  rw [trimPiece, h.strip_eq, dropPeriod, if_neg h.no_period, h.strip_eq]

theorem Spoken.trimPiece_period {s : List Char} (h : Spoken s) : trimPiece (s ++ ['.']) = s := by
  have hstrip : strip (s ++ ['.']) = s ++ ['.'] := by
    have hlast : ∀ c ∈ ['.'].getLast?, isBlank c = false := by rintro _ ⟨⟩; rfl
    have hs := strip_append [] h.ne_nil (by decide) h.starts hlast
    rwa [List.nil_append] at hs
  rw [trimPiece, hstrip, dropPeriod, List.getLast?_concat, if_pos rfl, List.dropLast_concat,
    h.strip_eq]

def join (all : List (List Char)) : List Char :=
  (" ".intercalate (all.map fun s => String.ofList (s ++ ['.']))).toList

theorem join_cons_cons (s t : List Char) (all : List (List Char)) :
    join (s :: t :: all) = s ++ '.' :: ' ' :: join (t :: all) := by
  simp [join]

theorem join_prefix (s : List Char) (all : List (List Char)) : s <+: join (s :: all) := by
  cases all with
  | nil => exact ⟨['.'], by simp [join]⟩
  | cons t all => exact ⟨_, (join_cons_cons s t all).symm⟩

theorem cut_join {all : List (List Char)} (hne : all ≠ []) (h : ∀ s ∈ all, Spoken s) :
    (cut false (join all)).map trimPiece = all := by
  induction all with
  | nil => exact absurd rfl hne
  | cons s all ih =>
      have hs := h s (by simp)
      cases all with
      | nil =>
          have hjoin : join [s] = s ++ ['.'] := by simp [join]
          rw [hjoin, cut_append hs.unbroken hs.no_period rfl, List.map_singleton,
            hs.trimPiece_period]
      | cons t all =>
          have ht := h t (by simp)
          have hstart : ∀ c ∈ (join (t :: all)).head?, isBlank c = false := by
            obtain ⟨rest, hrest⟩ := join_prefix t all
            rw [← hrest, List.head?_append_of_ne_nil _ ht.ne_nil]
            exact ht.starts
          have hcut : cut false ('.' :: ' ' :: join (t :: all)) =
              [] :: cut false (join (t :: all)) := by
            rw [← cut_true hstart]
            rfl
          rw [join_cons_cons, cut_append hs.unbroken hs.no_period hcut, List.append_nil,
            List.map_cons, hs.trimPiece_eq, ih (by simp) fun r hr => h r (List.mem_cons_of_mem s hr)]

/-- Sentences that are joined and cut again stand for their own lines. -/
theorem toLines_join {all : List (List Char)} (h : ∀ s ∈ all, Spoken s) :
    toLines (String.ofList (join all)) =
      "\n".intercalate (all.map fun s => String.ofList (lowerUnquoted false s)) := by
  by_cases hne : all = []
  · subst hne
    rfl
  · have hfilter : all.filter (· ≠ []) = all :=
      List.filter_eq_self.2 fun s hs => by simpa using (h s hs).ne_nil
    have hcut : (cut false (join all)).map (fun s => strip (dropPeriod (strip s))) = all :=
      cut_join hne h
    rw [toLines, String.toList_ofList, hcut, hfilter]

theorem lowerUnquoted_plain {s : List Char} (h : '"' ∉ s) (rest : List Char) :
    lowerUnquoted false (s ++ rest) = s.flatMap lowercase ++ lowerUnquoted false rest := by
  induction s with
  | nil => rfl
  | cons c s ih =>
      rw [List.mem_cons, not_or] at h
      have hc : (c == '"') = false := by simpa using Ne.symm h.1
      rw [List.cons_append, lowerUnquoted, hc, if_neg nofun, if_neg nofun, ih h.2, List.flatMap_cons,
        List.append_assoc]

theorem lowerUnquoted_quoted {s : List Char} (h : '"' ∉ s) (rest : List Char) :
    lowerUnquoted false ('"' :: (s ++ '"' :: rest)) =
      '"' :: (s ++ '"' :: lowerUnquoted false rest) := by
  have hin : lowerUnquoted true (s ++ '"' :: rest) = s ++ '"' :: lowerUnquoted false rest := by
    induction s with
    | nil => rfl
    | cons c s ih =>
        rw [List.mem_cons, not_or] at h
        have hc : (c == '"') = false := by simpa using Ne.symm h.1
        rw [List.cons_append, lowerUnquoted, hc, if_neg nofun, if_pos rfl, ih h.2]
        rfl
  exact congrArg ('"' :: ·) hin

end SentenceScript.Speech
