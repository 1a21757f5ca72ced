import SentenceScript.Value

namespace SentenceScript

/-- The variables of a script, in the order in which they were created. -/
abbrev Bindings := List (String × Value)

namespace Bindings

def names (b : Bindings) : List String := b.map Prod.fst

def get? : Bindings → String → Option Value
  | [], _ => none
  | (n, v) :: rest, name => if n = name then some v else get? rest name

/-- A new name goes last, a known one keeps its place. -/
def put : Bindings → String → Value → Bindings
  | [], name, value => [(name, value)]
  | (n, v) :: rest, name, value =>
      if n = name then (n, value) :: rest else (n, v) :: put rest name value

def ofPairs (pairs : List (String × Value)) : Bindings :=
  pairs.foldl (fun b (name, value) => b.put name value) []

theorem get?_put (b : Bindings) (name other : String) (value : Value) :
    (b.put name value).get? other = if name = other then some value else b.get? other := by
  induction b with
  | nil => simp [put, get?]
  | cons p rest ih =>
      obtain ⟨n, v⟩ := p
      by_cases h : n = name
      · subst h
        by_cases ho : n = other <;> simp [put, get?, ho]
      · by_cases ho : n = other
        · subst ho
          simp [put, get?, h, Ne.symm h]
        · simp [put, get?, h, ho, ih]

theorem names_put (b : Bindings) (name : String) (value : Value) :
    (b.put name value).names = if name ∈ b.names then b.names else b.names ++ [name] := by
  induction b with
  | nil => simp [put, names]
  | cons p rest ih =>
      obtain ⟨n, v⟩ := p
      simp only [names] at ih
      by_cases h : n = name
      · subst h
        simp [put, names]
      · simp only [put, h, if_false, names, List.map_cons, ih, List.mem_cons, Ne.symm h, false_or]
        by_cases hm : name ∈ List.map Prod.fst rest <;> simp [hm]

theorem put_of_not_mem {b : Bindings} {name : String} (h : name ∉ b.names) (value : Value) :
    b.put name value = b ++ [(name, value)] := by
  induction b with
  | nil => rfl
  | cons p rest ih =>
      obtain ⟨n, v⟩ := p
      simp only [names, List.map_cons, List.mem_cons, not_or] at h
      rw [put, if_neg (Ne.symm h.1), ih h.2]
      rfl

theorem put_nodup {b : Bindings} (h : b.names.Nodup) (name : String) (value : Value) :
    (b.put name value).names.Nodup := by
  rw [names_put]
  split
  · exact h
  · next hn =>
      refine List.nodup_append.2 ⟨h, by simp, fun a ha b hb => ?_⟩
      rintro rfl
      rw [List.mem_singleton] at hb
      exact hn (hb ▸ ha)

theorem get?_eq_none {b : Bindings} {name : String} : b.get? name = none ↔ name ∉ b.names := by
  induction b with
  | nil => simp [get?, names]
  | cons p rest ih =>
      obtain ⟨n, v⟩ := p
      by_cases h : n = name
      · simp [get?, names, h]
      · simpa [get?, names, h, Ne.symm h] using ih

end Bindings

end SentenceScript
