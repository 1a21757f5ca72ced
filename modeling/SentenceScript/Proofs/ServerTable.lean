import Mathlib.Data.List.Sort
import Mathlib.Data.String.Basic
import SentenceScript.State.Servers

namespace SentenceScript

namespace Servers

theorem lookup_cons (other key : String) (c : Connection) (l : List (String × Connection)) :
    ((key, c) :: l).lookup other = if other = key then some c else l.lookup other := by
  rw [List.lookup_cons]
  by_cases h : other = key
  · rw [beq_iff_eq.2 h, if_pos h]
  · rw [beq_eq_false_iff_ne.2 h, if_neg h]

theorem get?_insert (s : Servers) (key other : String) (c : Connection) :
    (s.insert key c).get? other = if other = key then some c else s.get? other := by
  obtain ⟨l, hl⟩ := s
  change (insertIn key c l).lookup other = if other = key then some c else l.lookup other
  clear hl
  induction l with
  | nil => rw [insertIn, lookup_cons]
  | cons p rest ih =>
      obtain ⟨k, d⟩ := p
      rw [insertIn]
      split
      · rw [lookup_cons]
      · split
        · next heq =>
            rw [lookup_cons, lookup_cons, heq]
            split <;> rfl
        · next hne =>
            rw [lookup_cons, ih, lookup_cons]
            by_cases h : other = k
            · rw [if_pos h, if_pos h, if_neg (h.trans_ne (Ne.symm hne))]
            · rw [if_neg h, if_neg h]

theorem get?_erase (s : Servers) (key other : String) :
    (s.erase key).get? other = if other = key then none else s.get? other := by
  obtain ⟨l, hl⟩ := s
  change (l.filter (·.1 != key)).lookup other = if other = key then none else l.lookup other
  clear hl
  induction l with
  | nil => simp
  | cons p rest ih =>
      obtain ⟨k, d⟩ := p
      rw [List.filter_cons, lookup_cons]
      by_cases hk : k = key
      · rw [if_neg (by simp [hk]), ih, hk]
        split <;> rfl
      · rw [if_pos (bne_iff_ne.2 hk), lookup_cons, ih]
        by_cases h : other = k
        · rw [if_pos h, if_pos h, if_neg (h.trans_ne hk)]
        · rw [if_neg h, if_neg h]

theorem mem_entries_iff {s : Servers} {entry : String × Connection} :
    entry ∈ s.entries ↔ s.get? entry.1 = some entry.2 := by
  constructor
  · intro hm
    obtain ⟨before, after, heq⟩ := List.append_of_mem hm
    have hsorted := s.sorted
    rw [heq, List.pairwise_append] at hsorted
    refine List.lookup_eq_some_iff.2 ⟨before, after, heq, fun p hp => ?_⟩
    have hlt : p.1 < entry.1 := hsorted.2.2 p hp entry List.mem_cons_self
    exact bne_iff_ne.2 fun heq => String.lt_irrefl p.1 (heq ▸ hlt)
  · intro hl
    obtain ⟨before, after, heq, -⟩ := List.lookup_eq_some_iff.1 hl
    rw [heq]
    exact List.mem_append_right before List.mem_cons_self

/-- A table is told by what it has under each key. -/
theorem ext_get? {s t : Servers} (h : ∀ key, s.get? key = t.get? key) : s = t := by
  obtain ⟨l, hl⟩ := s
  obtain ⟨m, hm⟩ := t
  have : Std.Irrefl fun p q : String × Connection => p.1 < q.1 := ⟨fun p => String.lt_irrefl p.1⟩
  have : Std.Antisymm fun p q : String × Connection => p.1 < q.1 :=
    ⟨fun p q hpq hqp => absurd hqp (String.lt_asymm hpq)⟩
  congr 1
  refine hl.eq_of_mem_iff hm fun entry => ?_
  rw [mem_entries_iff (s := ⟨l, hl⟩), mem_entries_iff (s := ⟨m, hm⟩), h]

end Servers

namespace Text

/-- The bytes of a text in UTF-8. -/
def bytes (s : String) : List UInt8 := s.toUTF8.data.toList

theorem bytes_eq (s : String) : bytes s = s.toList.flatMap String.utf8EncodeChar := by
  conv_lhs => rw [← String.ofList_toList (s := s)]
  rw [bytes, String.toUTF8_eq_toByteArray, String.toByteArray_ofList, List.utf8Encode,
    List.data_toByteArray]

theorem ofNat_cons_lt {a b : Nat} {x y : List UInt8} (ha : a < 256) (hb : b < 256) (hle : a ≤ b)
    (h : a = b → x < y) : UInt8.ofNat a :: x < UInt8.ofNat b :: y := by
  rw [List.cons_lt_cons_iff, UInt8.lt_iff_toNat_lt, UInt8.toNat_ofNat_of_lt' ha,
    UInt8.toNat_ofNat_of_lt' hb]
  rcases Nat.lt_or_eq_of_le hle with hlt | heq
  · exact .inl hlt
  · exact .inr ⟨congrArg UInt8.ofNat heq, h heq⟩

/-- The first byte grows with the number of bytes. The others are the digits of the character to the
base 64, from the highest on. -/
theorem encode_append_lt {c d : Char} (h : c < d) (x y : List UInt8) :
    String.utf8EncodeChar c ++ x < String.utf8EncodeChar d ++ y := by
  have hlt : c.val.toNat < d.val.toNat := UInt32.lt_iff_toNat_lt.1 h
  have hmax : d.val.toNat < 0x110000 := by
    rcases d.valid with hd | hd
    · exact Nat.lt_trans hd (by decide)
    · exact hd.2
  unfold String.utf8EncodeChar
  generalize c.val.toNat = v at *
  generalize d.val.toNat = w at *
  dsimp only
  split_ifs
  all_goals
    simp only [List.cons_append, List.nil_append]
    repeat' refine ofNat_cons_lt (by omega) (by omega) (by omega) fun _ => ?_
    omega

theorem flatMap_encode_lt {s t : List Char} (h : s < t) :
    s.flatMap String.utf8EncodeChar < t.flatMap String.utf8EncodeChar := by
  induction h with
  | @nil c r =>
      rw [List.flatMap_nil, List.flatMap_cons]
      cases hc : String.utf8EncodeChar c with
      | nil => exact absurd hc String.utf8EncodeChar_ne_nil
      | cons b bs => exact .nil
  | rel h => exact encode_append_lt h _ _
  | cons _ ih =>
      rw [List.flatMap_cons, List.flatMap_cons]
      exact List.append_left_lt ih

/-- Texts are ordered as their bytes are. -/
theorem bytes_lt {s t : String} (h : s < t) : bytes s < bytes t := by
  rw [bytes_eq, bytes_eq]
  exact flatMap_encode_lt (String.lt_iff_toList_lt.1 h)

end Text

end SentenceScript
