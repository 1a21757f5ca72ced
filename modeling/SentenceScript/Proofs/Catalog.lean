import Mathlib.Data.List.Basic
import Mathlib.Data.List.Pairwise
import SentenceScript.Proofs.Spelling

namespace SentenceScript

open Text

def Shape.spellings (shape : Shape) : List Spelling := shape.forms.flatMap Form.spellings

def Shape.apart (a b : Shape) : Bool := a.forms.all fun f => b.forms.all f.apart

namespace Shape

variable {a b shape : Shape} {s : List Char} {captures : List (List Char)}

theorem fits_of_read? (h : shape.read? s = some captures) :
    ∃ p ∈ shape.spellings, p.fits s = true := by
  obtain ⟨form, hf, hr⟩ := List.exists_of_findSome?_eq_some h
  obtain ⟨p, hp, hfit⟩ := Form.fits_of_read? hr
  exact ⟨p, List.mem_flatMap.2 ⟨form, hf, hp⟩, hfit⟩

theorem read?_of_apart (h : a.apart b = true) (ha : a.read? s = some captures) :
    b.read? s = none := by
  obtain ⟨f, hf, hr⟩ := List.exists_of_findSome?_eq_some ha
  refine List.findSome?_eq_none_iff.2 fun g hg => ?_
  exact Form.read?_of_apart (List.all_eq_true.1 (List.all_eq_true.1 h f hf) g hg) hr

/-- Of any two shapes, one that shows a variable and one that shows something named by words alone may
have a text in common, as far as their first marks tell. -/
theorem catalog_apart : catalog.Pairwise fun a b => a.apart b = true ∨
    (b = showVariable ∧ (a = showTasks ∨ a = showTasksWith)) ∨
      (a = showVariable ∧ b = showResponse) := by
  decide +kernel

theorem mem_catalog (shape : Shape) : shape ∈ catalog := by
  cases shape <;> decide

/-- What is shown as a variable has one word behind the first. -/
theorem map_fold_showVariable (h : showVariable.read? s = some captures) :
    ∃ name, s.map fold = "show ".toList ++ name ∧ ' ' ∉ name := by
  obtain ⟨p, hp, hfit⟩ := fits_of_read? h
  have hs : showVariable.spellings = ["show ".toList.map .letter ++ [.slot .name]] := rfl
  rw [hs, List.mem_singleton] at hp
  subst hp
  obtain ⟨r, he, hr⟩ := Spelling.fits_letters.1 hfit
  refine ⟨r.map fold, map_fold_of_eat? he, ?_⟩
  obtain ⟨rest, hname, hrest⟩ := Spelling.fits_cons.1 hr
  obtain ⟨⟨taken, left⟩, htake, rfl⟩ := Option.map_eq_some_iff.1 hname
  cases List.isEmpty_iff.1 hrest
  intro hm
  obtain ⟨c, hc, hblank⟩ := List.mem_map.1 hm
  exact Slot.fold_ne_blank (Slot.takeName_whole htake c hc) hblank

/-- A shape without slots is had by its own words alone. -/
theorem map_fold_mem_words (words : List (List Char))
    (hs : shape.spellings = words.map (·.map .letter)) (h : shape.read? s = some captures) :
    s.map fold ∈ words := by
  obtain ⟨p, hp, hfit⟩ := fits_of_read? h
  rw [hs] at hp
  obtain ⟨w, hw, rfl⟩ := List.mem_map.1 hp
  rwa [Spelling.map_fold_of_fits hfit]

theorem map_fold_showTasksWith (h : showTasksWith.read? s = some captures) :
    "show tasks where status is ".toList <+: s.map fold := by
  obtain ⟨p, hp, hfit⟩ := fits_of_read? h
  have hs : showTasksWith.spellings =
      ["show tasks where status is ".toList.map .letter ++ [.slot .quoted]] := rfl
  rw [hs, List.mem_singleton] at hp
  subst hp
  obtain ⟨r, he, -⟩ := Spelling.fits_letters.1 hfit
  exact ⟨r.map fold, (map_fold_of_eat? he).symm⟩

theorem not_shown_as_variable (h : showVariable.read? s = some captures) {w : List Char}
    (hw : ' ' ∈ w) : ¬ "show ".toList ++ w <+: s.map fold := by
  obtain ⟨name, hs, hn⟩ := map_fold_showVariable h
  rw [hs, List.prefix_append_right_inj]
  exact fun hp => hn (hp.subset hw)

/-- The two texts that have two shapes, up to folding, and these shapes in either order. -/
def Shared (s : List Char) (a b : Shape) : Prop :=
  (s.map fold = "show tasks".toList ∧ [a, b].Perm [showTasks, showVariable]) ∨
    (s.map fold = "show response".toList ∧ [a, b].Perm [showVariable, showResponse])

theorem Shared.symm (h : Shared s a b) : Shared s b a :=
  h.imp (.imp_right (.trans (.swap a b []))) (.imp_right (.trans (.swap a b [])))

theorem shared_of_read? (hab : a ≠ b) (ha : (a.read? s).isSome = true)
    (hb : (b.read? s).isSome = true) : Shared s a b := by
  let R (a b : Shape) : Prop :=
    (a.read? s).isSome = true → (b.read? s).isSome = true → Shared s a b
  have hsymm : Std.Symm R := ⟨fun a b h hb ha => (h ha hb).symm⟩
  have hpairs : catalog.Pairwise R := by
    refine catalog_apart.imp fun {a b} h ha hb => ?_
    obtain ⟨x, ha⟩ := Option.isSome_iff_exists.1 ha
    obtain ⟨y, hb⟩ := Option.isSome_iff_exists.1 hb
    rcases h with h | ⟨rfl, rfl | rfl⟩ | ⟨rfl, rfl⟩
    · rw [read?_of_apart h ha] at hb
      cases hb
    · have hw := map_fold_mem_words ["show all tasks".toList, "show tasks".toList] rfl ha
      rw [List.mem_cons, List.mem_singleton] at hw
      rcases hw with hw | hw
      · refine absurd ?_ (not_shown_as_variable hb (w := "all tasks".toList) (by decide))
        exact ⟨[], hw.symm⟩
      · exact .inl ⟨hw, .refl _⟩
    · exact absurd (map_fold_showTasksWith ha)
        (not_shown_as_variable hb (w := "tasks where status is ".toList) (by decide))
    · have hw := map_fold_mem_words ["show the response".toList, "show response".toList] rfl hb
      rw [List.mem_cons, List.mem_singleton] at hw
      rcases hw with hw | hw
      · refine absurd ?_ (not_shown_as_variable ha (w := "the response".toList) (by decide))
        exact ⟨[], hw.symm⟩
      · exact .inr ⟨hw, .refl _⟩
  exact hpairs.forall (mem_catalog a) (mem_catalog b) hab ha hb

section Show

variable {w : String}

theorem read?_show_words {o : String} (h : s.map fold = "show ".toList ++ w.toList)
    (ho : ¬ o.toList <+: w.toList) :
    Form.read? [text "show ", optional o, text w] s = some [] := by
  obtain ⟨p, r, rfl, hp, hr⟩ := List.map_eq_append_iff.1 h
  have hshow : eat? "show ".toList (p ++ r) = some r := eat?_append hp r
  have hskip : eat? o.toList r = none := eat?_eq_none hr ho
  have hword : eat? w.toList r = some [] := by
    rw [← List.append_nil r]
    exact eat?_append hr []
  simp only [Form.read?, Piece.take, text, optional, List.findSome?_cons, hshow, hskip,
    Option.map_some, bind, Option.bind_some]
  simp only [String.toList_empty, eat?, Option.map_some, Option.bind_some, hword]
  rfl

theorem read?_showTasks (h : s.map fold = "show tasks".toList) : showTasks.read? s = some [] := by
  have hr := read?_show_words (w := "tasks") (o := "all ") h (by decide)
  simp only [read?, forms, List.findSome?_cons, hr]

theorem read?_showResponse (h : s.map fold = "show response".toList) :
    showResponse.read? s = some [] := by
  have hr := read?_show_words (w := "response") (o := "the ") h (by decide)
  simp only [read?, forms, List.findSome?_cons, hr]

theorem read?_showVariable (h : s.map fold = "show ".toList ++ w.toList) (hne : w.toList ≠ [])
    (hw : w.toList.all (fun c => isNameStart c && fold c == c && c != '_') = true) :
    showVariable.read? s = some [s.drop 5] := by
  obtain ⟨p, r, rfl, hp, hr⟩ := List.map_eq_append_iff.1 h
  have hlen : p.length = 5 := by
    rw [← List.length_map (f := fold), hp]
    rfl
  have hshow : eat? "show ".toList (p ++ r) = some r := eat?_append hp r
  have hletters : ∀ c ∈ r, isNameStart c = true := by
    intro c hc
    have hword := List.all_eq_true.1 hw (fold c) (hr ▸ List.mem_map_of_mem hc)
    simp only [Bool.and_eq_true, beq_iff_eq, bne_iff_ne] at hword
    obtain ⟨⟨hstart, hfold⟩, hne⟩ := hword
    rw [isNameStart, hfold, beq_eq_false_iff_ne.2 hne, Bool.or_false] at hstart
    rw [isNameStart, hstart, Bool.true_or]
  have hname : Slot.takeName r = some ([r], []) :=
    Slot.takeName_of_letters (by rintro rfl; exact hne hr.symm) hletters
  rw [List.drop_left' hlen]
  simp only [read?, forms, text, gap, List.findSome?_cons, Form.read?, Piece.take, Slot.take, hshow,
    hname, Option.map_some, bind, Option.bind_some]
  rfl

end Show

/-- No third shape joins two shapes of one text. -/
theorem read?_isSome_iff (hab : a ≠ b) (ha : (a.read? s).isSome = true)
    (hb : (b.read? s).isSome = true) :
    (shape.read? s).isSome = true ↔ shape = a ∨ shape = b := by
  constructor
  · intro hs
    by_cases hne : shape = a
    · exact .inl hne
    · have hmem : [shape, a].Perm [a, b] := by
        rcases shared_of_read? hne hs ha with ⟨h, hp⟩ | ⟨h, hp⟩ <;>
          rcases shared_of_read? hab ha hb with ⟨h', hp'⟩ | ⟨h', hp'⟩
        · exact hp.trans hp'.symm
        · cases h.symm.trans h'
        · cases h.symm.trans h'
        · exact hp.trans hp'.symm
      simpa using hmem.subset (List.mem_cons_self)
  · rintro (rfl | rfl)
    · exact ha
    · exact hb

theorem read?_shown_tasks (h : s.map fold = "show tasks".toList) :
    showVariable.read? s = some [s.drop 5] :=
  read?_showVariable (w := "tasks") h (by decide) rfl

theorem read?_shown_response (h : s.map fold = "show response".toList) :
    showVariable.read? s = some [s.drop 5] :=
  read?_showVariable (w := "response") h (by decide) rfl

theorem read?_isSome_showTasks (h : s.map fold = "show tasks".toList) :
    (shape.read? s).isSome = true ↔ shape = showTasks ∨ shape = showVariable := by
  apply read?_isSome_iff (by decide)
  · rw [read?_showTasks h]
    rfl
  · rw [read?_shown_tasks h]
    rfl

theorem read?_isSome_showResponse (h : s.map fold = "show response".toList) :
    (shape.read? s).isSome = true ↔ shape = showVariable ∨ shape = showResponse := by
  apply read?_isSome_iff (by decide)
  · rw [read?_shown_response h]
    rfl
  · rw [read?_showResponse h]
    rfl

end Shape

namespace Sentence

open Shape

variable {order : List Shape} {s : List Char}

/-- The shapes of a text in the order of a catalog, each with its captures. -/
def candidates (order : List Shape) (s : List Char) : List (Shape × List (List Char)) :=
  order.filterMap fun shape => (shape.read? s).map fun captures => (shape, captures)

theorem commandIn_congr {order' : List Shape} (h : candidates order s = candidates order' s) :
    commandIn order s = commandIn order' s := by
  unfold candidates at h
  unfold commandIn
  rw [← List.head?_filterMap, ← List.head?_filterMap, h]

theorem candidates_filter (order : List Shape) (s : List Char) :
    candidates order s = candidates (order.filter fun shape => (shape.read? s).isSome) s := by
  unfold candidates
  rw [List.filterMap_filter]
  refine List.filterMap_congr fun shape _ => ?_
  cases shape.read? s <;> rfl

/-- With at most one shape for a text, the order does not matter. -/
theorem candidates_perm (hp : order.Perm catalog)
    (h : ∀ a b : Shape, (a.read? s).isSome = true → (b.read? s).isSome = true → a = b) :
    candidates order s = candidates catalog s := by
  rw [candidates_filter order, candidates_filter catalog]
  congr 1
  have hfilter := hp.filter fun shape => (shape.read? s).isSome
  generalize hf : catalog.filter (fun shape => (shape.read? s).isSome) = found at hfilter ⊢
  cases found with
  | nil => exact hfilter.eq_nil
  | cons a rest =>
      have hsame : ∀ b ∈ a :: rest, b = a := by
        intro b hb
        rw [← hf] at hb
        have ha : a ∈ catalog.filter fun shape => (shape.read? s).isSome := by rw [hf]; simp
        exact h b a (List.mem_filter.1 hb).2 (List.mem_filter.1 ha).2
      rw [List.eq_replicate_of_mem hsame] at hfilter ⊢
      exact List.perm_replicate.1 hfilter

/-- With two shapes for a text, only the order of these two matters. -/
theorem candidates_pair {a b : Shape} (hp : order.Perm catalog) (hs : [a, b].Sublist order)
    (hc : catalog.filter (fun shape => shape = a ∨ shape = b) = [a, b])
    (h : ∀ shape : Shape, (shape.read? s).isSome = true ↔ shape = a ∨ shape = b) :
    candidates order s = candidates catalog s := by
  have hfilter (l : List Shape) : l.filter (fun shape => (shape.read? s).isSome) =
      l.filter fun shape => shape = a ∨ shape = b :=
    List.filter_congr fun shape _ => by rw [Bool.eq_iff_iff, h, decide_eq_true_iff]
  have hsub : [a, b].Sublist (order.filter fun shape => shape = a ∨ shape = b) := by
    have := hs.filter fun shape => shape = a ∨ shape = b
    rwa [List.filter_eq_self.2 (by simp)] at this
  have hlength := (hp.filter fun shape => shape = a ∨ shape = b).length_eq
  rw [hc] at hlength
  rw [candidates_filter order, candidates_filter catalog, hfilter, hfilter, hc,
    hsub.eq_of_length hlength.symm]

theorem candidates_order (hp : order.Perm catalog)
    (hs : [showTasks, showVariable, showResponse].Sublist order) (s : List Char) :
    candidates order s = candidates catalog s := by
  by_cases h : ∀ a b : Shape, (a.read? s).isSome = true → (b.read? s).isSome = true → a = b
  · exact candidates_perm hp h
  · push Not at h
    obtain ⟨a, b, ha, hb, hab⟩ := h
    rcases shared_of_read? hab ha hb with ⟨htext, -⟩ | ⟨htext, -⟩
    · refine candidates_pair hp (.trans ?_ hs) (by decide) fun shape => read?_isSome_showTasks htext
      decide
    · refine candidates_pair hp (.trans ?_ hs) (by decide) fun shape => read?_isSome_showResponse htext
      decide

end Sentence

/-- At most one shape of the catalog has a text, but for the two texts `show tasks` and
`show response` in any letters that fold onto these: they have two shapes each. So the order of the
catalog matters for three shapes only. -/
theorem catalog_unambiguous :
    (∀ (text : String) (a b : Shape), a ≠ b → a.fits text = true → b.fits text = true →
      (text.toList.map fold = "show tasks".toList ∧ [a, b].Perm [.showTasks, .showVariable]) ∨
        (text.toList.map fold = "show response".toList ∧
          [a, b].Perm [.showVariable, .showResponse])) ∧
    (∀ (text : String) (shape : Shape), text.toList.map fold = "show tasks".toList →
      (shape.fits text = true ↔ shape = .showTasks ∨ shape = .showVariable)) ∧
    (∀ (text : String) (shape : Shape), text.toList.map fold = "show response".toList →
      (shape.fits text = true ↔ shape = .showVariable ∨ shape = .showResponse)) ∧
    ∀ order : List Shape, order.Perm Shape.catalog →
      [.showTasks, .showVariable, .showResponse].Sublist order →
      ∀ line : String, Sentence.classify line =
        ⟨trim line, Sentence.commandIn order (strip line.toList)⟩ := by
  refine ⟨fun text a b hab ha hb => Shape.shared_of_read? hab ha hb,
    fun text shape h => Shape.read?_isSome_showTasks h,
    fun text shape h => Shape.read?_isSome_showResponse h, fun order hp hs line => ?_⟩
  have hc := Sentence.candidates_order hp hs (strip line.toList)
  rw [Sentence.classify, Sentence.commandIn_congr hc]

/-- The long s folds onto the small one, so this line has both shapes of `show tasks`. It is
classified alike where the three shapes of the two texts come before all others. -/
theorem catalog_unambiguous_long_s :
    let text := "\u017fhow TASKS"
    let order := [Shape.showTasks, .showVariable, .showResponse] ++
      Shape.catalog.filter (· ∉ [Shape.showTasks, .showVariable, .showResponse])
    Shape.showTasks.fits text = true ∧ Shape.showVariable.fits text = true ∧
      text.toList.map fold = "show tasks".toList ∧ Shape.showResponse.fits text = false ∧
      Sentence.classify text = ⟨trim text, Sentence.commandIn order (strip text.toList)⟩ := by
  intro text order
  have htasks : Shape.showTasks.fits text = true := by decide
  have hvariable : Shape.showVariable.fits text = true := by decide
  obtain ⟨hshared, hexact, -, horder⟩ := catalog_unambiguous
  have hfold : text.toList.map fold = "show tasks".toList := by
    rcases hshared text _ _ (by decide) htasks hvariable with ⟨h, -⟩ | ⟨-, hp⟩
    · exact h
    · exact absurd (hp.subset (List.mem_cons_self)) (by decide)
  refine ⟨htasks, hvariable, hfold, ?_, horder order (by decide) (by decide) text⟩
  rw [← Bool.not_eq_true, hexact text _ hfold]
  decide

end SentenceScript
