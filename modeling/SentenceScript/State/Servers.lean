import SentenceScript.Service.Basic

namespace SentenceScript

/-- The connections by their keys, in the order of the keys. -/
structure Servers where
  entries : List (String × Connection)
  sorted : entries.Pairwise (·.1 < ·.1)

namespace Servers

def empty : Servers := ⟨[], .nil⟩

instance : Inhabited Servers := ⟨empty⟩

instance : EmptyCollection Servers := ⟨empty⟩

def get? (s : Servers) (key : String) : Option Connection := s.entries.lookup key

def insertIn (key : String) (c : Connection) :
    List (String × Connection) → List (String × Connection)
  | [] => [(key, c)]
  | (k, d) :: rest =>
      if key < k then (key, c) :: (k, d) :: rest
      else if key = k then (key, c) :: rest
      else (k, d) :: insertIn key c rest

theorem mem_insertIn {key : String} {c : Connection} {l : List (String × Connection)}
    {p : String × Connection} (h : p ∈ insertIn key c l) : p = (key, c) ∨ p ∈ l := by
  induction l with
  | nil => simpa [insertIn] using h
  | cons q rest ih =>
      obtain ⟨k, d⟩ := q
      simp only [insertIn] at h
      split at h
      · simpa using h
      · split at h
        · simp only [List.mem_cons] at h ⊢
          exact h.imp id .inr
        · simp only [List.mem_cons] at h ⊢
          rcases h with h | h
          · exact .inr (.inl h)
          · exact (ih h).imp id .inr

theorem insertIn_sorted (key : String) (c : Connection) (l : List (String × Connection))
    (h : l.Pairwise (·.1 < ·.1)) : (insertIn key c l).Pairwise (·.1 < ·.1) := by
  induction l with
  | nil => simp [insertIn]
  | cons q rest ih =>
      obtain ⟨k, d⟩ := q
      obtain ⟨hk, hr⟩ := List.pairwise_cons.1 h
      simp only [insertIn]
      split
      · next hlt =>
          refine List.pairwise_cons.2 ⟨fun p hp => ?_, h⟩
          rcases List.mem_cons.1 hp with rfl | hp
          · exact hlt
          · exact String.lt_trans hlt (hk p hp)
      · split
        · next heq => subst heq; exact List.pairwise_cons.2 ⟨hk, hr⟩
        · next hlt hne =>
            refine List.pairwise_cons.2 ⟨fun p hp => ?_, ih hr⟩
            rcases mem_insertIn hp with rfl | hp
            · have hle : k ≤ key := String.not_lt.1 hlt
              exact Classical.byContradiction fun hn =>
                hne (String.le_antisymm (String.not_lt.1 hn) hle)
            · exact hk p hp

def insert (s : Servers) (key : String) (c : Connection) : Servers :=
  ⟨insertIn key c s.entries, insertIn_sorted key c s.entries s.sorted⟩

def erase (s : Servers) (key : String) : Servers :=
  ⟨s.entries.filter (·.1 != key), s.sorted.filter _⟩

def ofPairs (pairs : List (String × Connection)) : Servers :=
  pairs.foldl (fun s (key, c) => s.insert key c) empty

end Servers

end SentenceScript
