import SentenceScript.Proofs.Records

namespace SentenceScript

open Json Decimal Text

namespace Json

def Numeral.Finite (m : Numeral) : Prop := m.toFloat.isFinite = true

mutual

/-- All numbers that can be read are finite. -/
def Scan.Finite : Scan → Prop
  | .number n => ∀ m, n.value = .ok m → m.Finite
  | .array items _ => Scan.FiniteItems items
  | .object members _ => Scan.FiniteMembers members
  | _ => True

def Scan.FiniteItems : List Scan → Prop
  | [] => True
  | item :: items => item.Finite ∧ FiniteItems items

def Scan.FiniteMembers : List (Lexeme String × Scan) → Prop
  | [] => True
  | (_, value) :: members => value.Finite ∧ FiniteMembers members

end

theorem realNumeral_finite {d : Decimal} {m : Numeral} (h : realNumeral d = .ok m) : m.Finite := by
  unfold realNumeral at h
  split at h
  · next hd => cases h; exact hd
  · cases h

theorem toFloat_finite_of_le {negative : Bool} {n : Nat} (h : n ≤ 18446744073709551616) :
    (Decimal.toFloat ⟨negative, n, 0⟩).isFinite = true := by
  refine toFloat_finite_of_lt ?_ rfl
  have hn : (n : ℚ) ≤ 18446744073709551616 := by exact_mod_cast h
  rw [magnitude_mk, zpow_zero, mul_one]
  calc (n : ℚ) ≤ 18446744073709551616 := hn
    _ = 2 ^ (64 : ℤ) := by norm_num
    _ < 2 ^ (1000 : ℤ) := zpow_lt_zpow_right₀ one_lt_two (by norm_num)

theorem wholeNumeral_finite {negative : Bool} {n : Nat} {m : Numeral}
    (h : wholeNumeral negative n = some m) : m.Finite := by
  unfold wholeNumeral at h
  split at h
  · split at h
    · next hn =>
        cases h
        rw [pow2_63] at hn
        exact toFloat_finite_of_le (by omega)
    · cases h
  · split at h
    · next hn =>
        cases h
        exact toFloat_finite_of_le (Nat.le_of_lt hn)
    · cases h

theorem brokenNumber_finite (rest : List Char) {m : Numeral}
    (h : (brokenNumber rest).1.value = .ok m) : m.Finite := by
  simp [brokenNumber] at h

theorem scanExponent_finite {negative : Bool} {whole fraction s : List Char} {m : Numeral}
    (h : (scanExponent negative whole fraction s).1.value = .ok m) : m.Finite := by
  unfold scanExponent at h
  dsimp only at h
  split at h
  · exact brokenNumber_finite _ h
  · exact realNumeral_finite h

theorem scanNumber_finite {negative : Bool} {s : List Char} {m : Numeral}
    (h : (scanNumber negative s).1.value = .ok m) : m.Finite := by
  unfold scanNumber at h
  dsimp only at h
  split at h
  · exact brokenNumber_finite _ h
  split at h
  · cases h
  split at h
  · split at h
    · exact brokenNumber_finite _ h
    split at h
    · exact scanExponent_finite h
    · exact scanExponent_finite h
    · exact realNumeral_finite h
  · exact scanExponent_finite h
  · exact scanExponent_finite h
  · next n _ _ _ =>
      dsimp only at h
      cases hw : wholeNumeral negative (valueOf (s.takeWhile Char.isDigit)) with
      | none => rw [hw] at h; exact realNumeral_finite h
      | some k =>
          rw [hw] at h
          cases h
          exact wholeNumeral_finite hw

theorem scanWord_finite {word : String} {meaning : Scan} (h : meaning.Finite) (s : List Char) :
    (scanWord word meaning s).1.Finite := by
  unfold scanWord
  split
  · exact h
  · trivial

/-- Every number scanned with some fuel is finite. -/
def ScansFinite (fuel : Nat) : Prop :=
  ∀ s, (scanValue fuel s).1.Finite ∧ Scan.FiniteItems (scanItems fuel s).1 ∧
    Scan.FiniteMembers (scanMembers fuel s).1

section Step

variable {fuel : Nat} (h : ScansFinite fuel) (s : List Char)
include h

theorem scanValue_finite : (scanValue (fuel + 1) s).1.Finite := by
  unfold scanValue
  split
  · trivial
  · exact scanWord_finite (by trivial) _
  · exact scanWord_finite (by trivial) _
  · exact scanWord_finite (by trivial) _
  · trivial
  · exact fun m hm => scanNumber_finite hm
  · split
    · trivial
    · trivial
    · exact (h _).2.1
  · split
    · trivial
    · trivial
    · exact (h _).2.2
  · split
    · exact fun m hm => scanNumber_finite hm
    · trivial

theorem scanItems_finite : Scan.FiniteItems (scanItems (fuel + 1) s).1 := by
  have hitem := (h s).1
  unfold scanItems
  split
  · next item hs =>
      rw [hs] at hitem
      exact ⟨hitem, trivial⟩
  · next item r hs =>
      rw [hs] at hitem
      split
      · exact ⟨hitem, trivial⟩
      · exact ⟨hitem, (h _).2.1⟩
      · exact ⟨hitem, trivial⟩
      · exact ⟨hitem, trivial⟩

theorem scanMembers_finite : Scan.FiniteMembers (scanMembers (fuel + 1) s).1 := by
  unfold scanMembers
  split
  · exact ⟨trivial, trivial⟩
  · split
    · next r _ =>
        have hvalue := (h r).1
        split
        · next value hr =>
            rw [hr] at hvalue
            exact ⟨hvalue, trivial⟩
        · next value r hr =>
            rw [hr] at hvalue
            split
            · exact ⟨hvalue, trivial⟩
            · exact ⟨hvalue, (h _).2.2⟩
            · exact ⟨hvalue, trivial⟩
            · exact ⟨hvalue, trivial⟩
    · exact ⟨trivial, trivial⟩
    · exact ⟨trivial, trivial⟩

end Step

theorem scan_finite (fuel : Nat) : ScansFinite fuel := by
  induction fuel with
  | zero => exact fun s => ⟨trivial, trivial, trivial⟩
  | succ fuel ih =>
      exact fun s => ⟨scanValue_finite ih s, scanItems_finite ih s, scanMembers_finite ih s⟩

namespace Scan

theorem readFloat_finite {s : Scan} (hs : s.Finite) {x : Float} (h : s.readFloat = .ok x) :
    x.isFinite = true := by
  cases s with
  | number n =>
      obtain ⟨value, skipped⟩ := n
      cases value with
      | error f => cases h
      | ok m => cases h; exact hs m rfl
  | _ => cases h

theorem readOption_some {α : Type} {read : Scan → Except Fault α} {s : Scan} {a : α}
    (h : s.readOption read = .ok (some a)) : read s = .ok a := by
  unfold readOption at h
  split at h
  · cases h
  · cases hr : read s with
    | error f => rw [hr] at h; cases h
    | ok b => rw [hr] at h; cases h; rfl

end Scan

theorem exists_of_bind_ok {α β : Type} {x : Except Fault α} {f : α → Except Fault β} {b : β}
    (h : x >>= f = .ok b) : ∃ a, x = .ok a ∧ f a = .ok b := by
  cases x with
  | error e => cases h
  | ok a => exact ⟨a, rfl, h⟩

namespace Record

variable {α : Type} {P : α → Prop} {fields : List (Field α)}

/-- Every field keeps the property, whatever finite numbers it reads. -/
def Keeps (fields : List (Field α)) (P : α → Prop) : Prop :=
  ∀ f ∈ fields, ∀ s : Scan, s.Finite → ∀ a b, P a → f.set s a = .ok b → P b

theorem ofItems_keeps (hk : Keeps fields P) {items : List Scan} (hi : Scan.FiniteItems items)
    {close : Except Fault Unit} {a b : α} (ha : P a) (h : ofItems fields items close a = .ok b) :
    P b := by
  induction fields generalizing items a with
  | nil =>
      cases items with
      | nil =>
          obtain ⟨_, -, h⟩ := exists_of_bind_ok h
          cases h
          exact ha
      | cons item items => cases h
  | cons f fields ih =>
      cases items with
      | nil => obtain ⟨_, -, h⟩ := exists_of_bind_ok h; cases h
      | cons item items =>
          obtain ⟨c, hf, h⟩ := exists_of_bind_ok h
          exact ih (fun g hg => hk g (List.mem_cons_of_mem _ hg)) hi.2
            (hk f (by simp) item hi.1 a c ha hf) h

theorem ofMembers_keeps (hk : Keeps fields P) {members : List (Lexeme String × Scan)}
    (hm : Scan.FiniteMembers members) {seen : List String} {a : α} {r : List String × α} (ha : P a)
    (h : ofMembers fields members seen a = .ok r) : P r.2 := by
  induction members generalizing seen a with
  | nil => cases h; exact ha
  | cons member members ih =>
      obtain ⟨key, value⟩ := member
      obtain ⟨name, -, h⟩ := exists_of_bind_ok h
      dsimp only at h
      split at h
      · obtain ⟨_, -, h⟩ := exists_of_bind_ok h
        exact ih hm.2 ha h
      · next f hf =>
          split at h
          · cases h
          · obtain ⟨c, hc, h⟩ := exists_of_bind_ok h
            exact ih hm.2 (hk f (List.mem_of_find?_eq_some hf) value hm.1 a c ha hc) h

/-- What every field keeps holds of each record that is read. -/
theorem read_keeps (hk : Keeps fields P) {blank : α} (hb : P blank) {s : Scan} (hs : s.Finite) {a : α}
    (h : read fields blank s = .ok a) : P a := by
  cases s with
  | array items close => exact ofItems_keeps hk hs hb h
  | object members close =>
      obtain ⟨r, hr, h⟩ := exists_of_bind_ok h
      obtain ⟨_, -, h⟩ := exists_of_bind_ok h
      split at h
      · cases h; exact ofMembers_keeps hk hs hb hr
      · cases h
  | _ => cases h

end Record

end Json

end SentenceScript
