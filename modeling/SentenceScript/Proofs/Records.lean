import SentenceScript.Snapshot.Json
import SentenceScript.Proofs.JsonText
import SentenceScript.Proofs.Timestamps

namespace SentenceScript

open Json

namespace Json

theorem scanned_object_ne_null (members : List (String × Json)) :
    (Json.object members).scanned ≠ .null := by
  rw [scanned]
  intro h
  cases h

namespace Record

variable {α : Type} {fields : List (Field α)}

theorem find?_name (hn : (fields.map Field.name).Nodup) {f : Field α} (hf : f ∈ fields) :
    fields.find? (·.name == f.name) = some f := by
  induction fields with
  | nil => simp at hf
  | cons g fields ih =>
      rw [List.map_cons, List.nodup_cons] at hn
      rcases List.mem_cons.1 hf with rfl | hf
      · simp
      · have hne : g.name ≠ f.name := fun h => hn.1 (h ▸ List.mem_map_of_mem hf)
        rw [List.find?_cons, beq_eq_false_iff_ne.2 hne]
        exact ih hn.2 hf

/-- Members that are the fields in their order are read one after the other. -/
theorem ofMembers_zip (hn : (fields.map Field.name).Nodup) {rest : List (Field α)}
    (hr : ∀ f ∈ rest, f ∈ fields) (hrest : (rest.map Field.name).Nodup) {values : List Json}
    (hlen : values.length = rest.length) {seen : List String}
    (hs : ∀ f ∈ rest, f.name ∉ seen) (a : α) :
    ofMembers fields (scannedMembers ((rest.map Field.name).zip values)) seen a =
      (ofItems rest (scannedItems values) (.ok ()) a).map
        fun b => ((rest.map Field.name).reverse ++ seen, b) := by
  induction rest generalizing values seen a with
  | nil =>
      obtain rfl : values = [] := List.length_eq_zero_iff.1 hlen
      rfl
  | cons f rest ih =>
      cases values with
      | nil => simp at hlen
      | cons value values =>
          rw [List.map_cons, List.nodup_cons] at hrest
          have hseen : f.name ∉ seen := hs f (by simp)
          simp only [List.map_cons, List.zip_cons_cons, scannedMembers, scannedItems, ofMembers,
            ofItems, find?_name hn (hr f (by simp)), bind, Except.bind, hseen, if_false]
          cases f.set value.scanned a with
          | error e => rfl
          | ok b =>
              have hnext : ∀ g ∈ rest, g.name ∉ f.name :: seen := by
                intro g hg hmem
                rcases List.mem_cons.1 hmem with h | h
                · exact hrest.1 (h ▸ List.mem_map_of_mem hg)
                · exact hs g (List.mem_cons_of_mem _ hg) h
              have h := ih (fun g hg => hr g (List.mem_cons_of_mem _ hg)) hrest.2
                (by simpa using hlen) hnext b
              simp [h]

theorem read_object (fields : List (Field α)) (hn : (fields.map Field.name).Nodup) (blank : α)
    (values : List Json) (hlen : values.length = fields.length) :
    read fields blank (Json.object ((fields.map Field.name).zip values)).scanned =
      ofItems fields (scannedItems values) (.ok ()) blank := by
  have hmembers : ofMembers fields _ [] blank = _ :=
    ofMembers_zip hn (fun f hf => hf) hn hlen (by simp) blank
  rw [scanned, read, hmembers]
  cases ofItems fields (scannedItems values) (.ok ()) blank with
  | error e => rfl
  | ok b =>
      have hall : (fields.all fun f => f.optional ||
          decide (f.name ∈ (fields.map Field.name).reverse ++ [])) = true := by
        rw [List.all_eq_true]
        intro f hf
        have hmem : f.name ∈ (fields.map Field.name).reverse ++ [] := by
          simpa using ⟨f, hf, rfl⟩
        rw [decide_eq_true hmem, Bool.or_true]
      simp only [Except.map, bind, Except.bind, hall, if_true, pure, Except.pure]

end Record

namespace Scan

theorem readNatural_scanned {n bound : Nat} (h : n < bound) (hb : bound ≤ UInt64.size) :
    (Json.count n).scanned.readNatural bound = .ok n := by
  have hw : wholeNumeral false n = some (.natural n) := by
    simp [wholeNumeral, Nat.lt_of_lt_of_le h hb]
  simp only [scanned, hw, Option.elim_some, readNatural, h, if_true]

/-- What is not finite is written as `null`, and refused. -/
theorem readFloat_scanned (x : Float) :
    (Json.number x).scanned.readFloat = if x.isFinite then .ok x else .error .mismatch := by
  rw [scanned]
  split <;> rfl

variable {α : Type} {read : Scan → Except Fault α} {f : α → Json}

theorem readOption_map_scanned {β : Type} {g : β → Json} {k : β → α} {o : Option β}
    (h : ∀ b ∈ o, read (g b).scanned = .ok (k b)) (hn : ∀ b, (g b).scanned ≠ .null) :
    (Json.ofOption g o).scanned.readOption read = .ok (o.map k) := by
  cases o with
  | none => rfl
  | some b =>
      have hr : (g b).scanned.readOption read = (read (g b).scanned).map some := by
        unfold readOption
        split
        · next he => exact absurd he (hn b)
        · rfl
      rw [ofOption, hr, h b rfl]
      rfl

theorem readOption_scanned {o : Option α} (h : ∀ a ∈ o, read (f a).scanned = .ok a)
    (hn : ∀ a, (f a).scanned ≠ .null) : (Json.ofOption f o).scanned.readOption read = .ok o :=
  (readOption_map_scanned h hn).trans (congrArg _ Option.map_id')

theorem readList_scanned {l : List α} (h : ∀ a ∈ l, read (f a).scanned = .ok a) :
    (Json.array (l.map f)).scanned.readList read = .ok l := by
  have hitems : readItems read (scannedItems (l.map f)) = .ok l := by
    induction l with
    | nil => rfl
    | cons a l ih =>
        rw [List.map_cons, scannedItems, readItems, h a (by simp),
          ih fun b hb => h b (List.mem_cons_of_mem _ hb)]
        rfl
  rw [scanned, readList, hitems]
  rfl

theorem readPairs_scanned {l : List (String × α)} (h : ∀ p ∈ l, read (f p.2).scanned = .ok p.2) :
    (Json.object (l.map fun p => (p.1, f p.2))).scanned.readPairs read = .ok l := by
  have hmembers : readMembers read (scannedMembers (l.map fun p => (p.1, f p.2))) = .ok l := by
    induction l with
    | nil => rfl
    | cons p l ih =>
        rw [List.map_cons, scannedMembers, readMembers, h p (by simp),
          ih fun q hq => h q (List.mem_cons_of_mem _ hq)]
        rfl
  rw [scanned, readPairs, hmembers]
  rfl

end Scan

end Json

section Records

open Scan

theorem Json.Scan.readText_scanned (s : String) : (Json.text s).scanned.readText = .ok s := rfl

theorem Json.Scan.readBool_scanned (b : Bool) : (Json.bool b).scanned.readBool = .ok b := rfl

attribute [local simp] bind Except.bind pure Except.pure scannedItems Record.ofItems
  readText_scanned readBool_scanned

@[simp]
theorem Instant.read_scanned (t : Instant) : Instant.read t.toJson.scanned = .ok t := by
  simp [Instant.read, Instant.toJson, ofChars?_toChars]

@[simp]
theorem SearchResult.read_scanned (r : SearchResult) :
    SearchResult.read r.toJson.scanned = .ok r := by
  have hid := readNatural_scanned r.id.toNat_lt_size (by decide)
  refine (Record.read_object fields (by decide) ⟨0, "", ""⟩
    [.count r.id.toNat, .text r.title, .text r.description] rfl).trans ?_
  simp [fields, hid]

@[simp]
theorem SearchResponse.read_scanned (r : SearchResponse) :
    SearchResponse.read r.toJson.scanned = .ok r := by
  have hresults := readList_scanned fun a (_ : a ∈ r.results) => SearchResult.read_scanned a
  refine (Record.read_object fields (by decide) ⟨"", []⟩
    [.text r.query, .array (r.results.map SearchResult.toJson)] rfl).trans ?_
  simp [fields, hresults]

@[simp]
theorem Connection.read_scanned (c : Connection) : Connection.read c.toJson.scanned = .ok c := by
  refine (Record.read_object fields (by decide) ⟨"", "", false, .epoch⟩
    [.text c.url, .text c.protocol, .bool c.connected, c.connectedAt.toJson] rfl).trans ?_
  simp [fields]

@[simp]
theorem ModelRequest.read_scanned (r : ModelRequest) :
    ModelRequest.read r.toJson.scanned = .ok r := by
  have hprompt := readOption_scanned (fun s (_ : s ∈ r.systemPrompt) => readText_scanned s) nofun
  refine (Record.read_object fields (by decide) blank
    [.text r.model, .ofOption .text r.systemPrompt, .text r.userMessage, r.timestamp.toJson]
    rfl).trans ?_
  simp [fields, hprompt]

@[simp]
theorem ModelReply.read_scanned (r : ModelReply) : ModelReply.read r.toJson.scanned = .ok r := by
  refine (Record.read_object fields (by decide) ⟨"", "", .epoch, .blank⟩
    [.text r.model, .text r.response, r.timestamp.toJson, r.request.toJson] rfl).trans ?_
  simp [fields]

@[simp]
theorem Task.read_scanned (t : Task) : Task.read t.toJson.scanned = .ok t := by
  refine (Record.read_object fields (by decide) ⟨"", ""⟩ [.text t.name, .text t.status] rfl).trans ?_
  simp [fields]

theorem Comparison.readChoice_scanned (c : Comparison) :
    (Json.text c.jsonName).scanned.readChoice jsonNames = .ok c := by
  cases c <;> rfl

theorem Guard.read_scanned (g : Guard) :
    Guard.read g.toJson.scanned = if g.threshold.isFinite then .ok g else .error .mismatch := by
  refine (Record.read_object fields (by decide) ⟨"", .above, 0⟩
    [.text g.subject, .text g.comparison.jsonName, .number g.threshold] rfl).trans ?_
  cases hx : g.threshold.isFinite <;>
    simp [fields, Comparison.readChoice_scanned, readFloat_scanned, hx]

/-- The guard, if there is one, compares with a finite number. -/
def LoopView.isFinite (v : LoopView) : Bool := v.whileCondition.all (·.threshold.isFinite)

theorem LoopView.readGuard_scanned (v : LoopView) :
    (Json.ofOption Guard.toJson v.whileCondition).scanned.readOption Guard.read =
      if v.isFinite then .ok v.whileCondition else .error .mismatch := by
  unfold isFinite
  cases v.whileCondition with
  | none => rfl
  | some g =>
      have hr : g.toJson.scanned.readOption Guard.read = (Guard.read g.toJson.scanned).map some :=
        rfl
      rw [ofOption, hr, Guard.read_scanned, Option.all_some]
      split <;> rfl

theorem LoopView.read_scanned (v : LoopView) :
    LoopView.read v.toJson.scanned = if v.isFinite then .ok v else .error .mismatch := by
  have htype := readOption_scanned (fun s (_ : s ∈ v.loopType) => readText_scanned s) nofun
  have hlines := readList_scanned fun s (_ : s ∈ v.bufferedLines) => readText_scanned s
  have hcount : (Json.ofOption (fun n => .count n.toNat) v.repeatCount).scanned.readOption
      (readNatural UInt64.size) = .ok (v.repeatCount.map UInt64.toNat) :=
    readOption_map_scanned (fun n _ => readNatural_scanned n.toNat_lt_size (Nat.le_refl _)) nofun
  have htext : v.toJson = .object ((fields.map Record.Field.name).zip
    [.bool v.inLoop, .ofOption .text v.loopType, .array (v.bufferedLines.map .text),
      .ofOption (fun n => .count n.toNat) v.repeatCount,
      .ofOption Guard.toJson v.whileCondition]) := rfl
  rw [LoopView.read, htext, Record.read_object _ (by decide) _ _ rfl]
  cases hx : v.isFinite <;>
    simp [fields, htype, hlines, hcount, readGuard_scanned, hx, Function.comp_def]

/-- A number that is not finite is named, and the name stands for it alone. -/
theorem Value.lookup_numberText {x : Float} (h : x.isFinite = false) :
    nonFinite.lookup (numberText x) = some x := by
  rcases Binary64.eq_of_not_finite h with rfl | rfl | rfl <;> rfl

theorem Value.read_scanned (v : Value) {room : Nat} (hr : 1 < room) :
    Value.read room v.toJson.scanned = .ok v := by
  cases v with
  | text s => simp [Value.read, Value.toJson, scanned, Scan.toJson, ofJson?, Except.map]
  | number x =>
      by_cases hx : x.isFinite = true
      · simp [Value.read, Value.toJson, scanned, Scan.toJson, ofJson?, Except.map, hx, Numeral.toFloat]
      · have hn := lookup_numberText (Bool.eq_false_iff.2 hx)
        have hroom : ¬room ≤ 1 := by omega
        simp [Value.read, Value.toJson, scanned, scannedMembers, Scan.toJson, Scan.membersToJson,
          ofJson?, Except.map, hx, hroom, hn, nonFinite?]

end Records

end SentenceScript
