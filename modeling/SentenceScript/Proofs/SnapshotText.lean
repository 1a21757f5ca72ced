import SentenceScript.Proofs.FiniteNumbers

namespace SentenceScript

open Json Scan

namespace Bindings

/-- Bindings with different names are read back in their order. -/
theorem ofPairs_eq {b : Bindings} (h : b.names.Nodup) : ofPairs b = b := by
  have hfold (pre rest : Bindings) (hn : (pre ++ rest).names.Nodup) :
      rest.foldl (fun b p => b.put p.1 p.2) pre = pre ++ rest := by
    induction rest generalizing pre with
    | nil => simp
    | cons p rest ih =>
        obtain ⟨name, value⟩ := p
        have hnew : name ∉ names pre := by
          intro hm
          simp only [names, List.map_append, List.map_cons, List.nodup_append] at hn hm
          exact hn.2.2 name hm name (by simp) rfl
        change rest.foldl _ (pre.put name value) = _
        rw [put_of_not_mem hnew, ih _ (by simpa using hn)]
        simp
  exact hfold [] b h

end Bindings

namespace Servers

theorem insertIn_last {key : String} {l : List (String × Connection)}
    (h : ∀ p ∈ l, p.1 < key) (c : Connection) : insertIn key c l = l ++ [(key, c)] := by
  induction l with
  | nil => rfl
  | cons p rest ih =>
      obtain ⟨k, d⟩ := p
      have hk : k < key := h (k, d) (by simp)
      rw [insertIn, if_neg (String.lt_asymm hk), if_neg (String.ne_of_lt hk).symm,
        ih fun p hp => h p (List.mem_cons_of_mem _ hp)]
      rfl

theorem ofPairs_entries (s : Servers) : ofPairs s.entries = s := by
  have hfold (t : Servers) (rest : List (String × Connection))
      (hs : (t.entries ++ rest).Pairwise (·.1 < ·.1)) :
      (rest.foldl (fun s p => s.insert p.1 p.2) t).entries = t.entries ++ rest := by
    induction rest generalizing t with
    | nil => simp
    | cons p rest ih =>
        obtain ⟨key, c⟩ := p
        have hlast : ∀ p ∈ t.entries, p.1 < key := fun p hp =>
          (List.pairwise_append.1 hs).2.2 p hp (key, c) (by simp)
        have hins : (t.insert key c).entries = t.entries ++ [(key, c)] := insertIn_last hlast c
        rw [List.foldl_cons, ih _ (by simpa [hins] using hs), hins]
        simp
  have h : (ofPairs s.entries).entries = s.entries := hfold empty s.entries s.sorted
  cases hp : ofPairs s.entries
  rw [hp] at h
  subst h
  rfl

end Servers

namespace Snapshot

/-- What the writer asks of a snapshot: the names of its variables differ, as they do in a table, and
the guard of its loop compares with a finite number. -/
structure Writable (v : Snapshot) : Prop where
  names_nodup : v.bindings.names.Nodup
  loop_finite : v.loop.isFinite = true

theorem read_scanned {v : Snapshot} (h : v.bindings.names.Nodup) :
    Snapshot.read v.toJson.scanned = if v.loop.isFinite then .ok v else .error .mismatch := by
  have hbindings := readPairs_scanned fun p (_ : p ∈ v.bindings) =>
    Value.read_scanned p.2 (by decide : 1 < Value.deepest - 2)
  have htasks := readList_scanned fun t (_ : t ∈ v.tasks) => Task.read_scanned t
  have hendpoint := readOption_scanned (fun s (_ : s ∈ v.endpoint) => readText_scanned s) nofun
  have hresponse := readOption_scanned (fun r (_ : r ∈ v.response) => SearchResponse.read_scanned r)
    fun _ => scanned_object_ne_null _
  have hservers := readPairs_scanned fun p (_ : p ∈ v.servers.entries) => Connection.read_scanned p.2
  have hrequest := readOption_scanned (fun r (_ : r ∈ v.request) => ModelRequest.read_scanned r)
    fun _ => scanned_object_ne_null _
  have hreply := readOption_scanned (fun r (_ : r ∈ v.reply) => ModelReply.read_scanned r)
    fun _ => scanned_object_ne_null _
  have hlog := readList_scanned fun s (_ : s ∈ v.log) => readText_scanned s
  have htext : v.toJson = .object ((fields.map Record.Field.name).zip
    [.object (v.bindings.map fun p => (p.1, p.2.toJson)),
      .array (v.tasks.map Task.toJson), v.loop.toJson, .ofOption .text v.endpoint,
      .ofOption SearchResponse.toJson v.response,
      .object (v.servers.entries.map fun p => (p.1, p.2.toJson)),
      .ofOption ModelRequest.toJson v.request, .ofOption ModelReply.toJson v.reply,
      .array (v.log.map .text)]) := rfl
  rw [Snapshot.read, htext, Record.read_object _ (by decide) _ _ rfl]
  cases hx : v.loop.isFinite <;>
    simp only [fields, scannedItems, Record.ofItems, hbindings, htasks, LoopView.read_scanned,
      hendpoint, hresponse, hservers, hrequest, hreply, hlog, bind, Except.bind, pure, Except.pure,
      Bindings.ofPairs_eq h, Servers.ofPairs_entries, hx, Bool.false_eq_true, if_true, if_false]

end Snapshot

theorem Bindings.ofPairs_nodup (pairs : List (String × Value)) : (ofPairs pairs).names.Nodup := by
  have hfold (b : Bindings) (hb : b.names.Nodup) :
      (pairs.foldl (fun b p => b.put p.1 p.2) b).names.Nodup := by
    induction pairs generalizing b with
    | nil => exact hb
    | cons p pairs ih => exact ih _ (put_nodup hb p.1 p.2)
  exact hfold [] List.nodup_nil

section Kept

variable {s : Scan}

theorem Guard.read_finite (hs : s.Finite) {g : Guard} (h : Guard.read s = .ok g) :
    g.threshold.isFinite = true := by
  have keeps : Record.Keeps fields fun g : Guard => g.threshold.isFinite = true := by
    intro f hf s hs a b ha h
    simp only [fields, List.mem_cons, List.not_mem_nil, or_false] at hf
    rcases hf with rfl | rfl | rfl
    all_goals
      obtain ⟨x, hx, h⟩ := exists_of_bind_ok h
      cases h
    exacts [ha, ha, readFloat_finite hs hx]
  exact Record.read_keeps keeps rfl hs h

theorem LoopView.read_finite (hs : s.Finite) {v : LoopView} (h : LoopView.read s = .ok v) :
    v.isFinite = true := by
  have keeps : Record.Keeps fields fun v : LoopView => v.isFinite = true := by
    intro f hf s hs a b ha h
    simp only [fields, List.mem_cons, List.not_mem_nil, or_false] at hf
    rcases hf with rfl | rfl | rfl | rfl | rfl
    all_goals
      obtain ⟨x, hx, h⟩ := exists_of_bind_ok h
      cases h
    case inr.inr.inr.inr =>
      refine Option.all_eq_true _ _ |>.2 fun g hg => ?_
      obtain rfl : x = some g := hg
      exact Guard.read_finite hs (readOption_some hx)
    all_goals exact ha
  exact Record.read_keeps keeps rfl hs h

/-- Whatever is read can be written. -/
theorem Snapshot.read_writable (hs : s.Finite) {v : Snapshot} (h : Snapshot.read s = .ok v) :
    v.Writable := by
  have keeps : Record.Keeps fields Writable := by
    intro f hf s hs a b ha h
    simp only [fields, List.mem_cons, List.not_mem_nil, or_false] at hf
    rcases hf with rfl | rfl | rfl | rfl | rfl | rfl | rfl | rfl | rfl
    all_goals
      obtain ⟨x, hx, h⟩ := exists_of_bind_ok h
      cases h
    case inl => exact ⟨Bindings.ofPairs_nodup x, ha.loop_finite⟩
    case inr.inr.inl => exact ⟨ha.names_nodup, LoopView.read_finite hs hx⟩
    all_goals exact ⟨ha.names_nodup, ha.loop_finite⟩
  have hblank : ({} : Snapshot).Writable := ⟨List.nodup_nil, rfl⟩
  exact Record.read_keeps keeps hblank hs h

end Kept

theorem Snapshot.ofText_writable {t : String} {v : Snapshot} (h : Snapshot.ofText t = .ok v) :
    v.Writable := by
  obtain ⟨a, ha, h⟩ := exists_of_bind_ok h
  have hfinite := (scan_finite (2 * t.toList.length + 2) t.toList).1
  obtain rfl : a = v := by
    split at h
    · split at h
      · cases h; rfl
      · cases h
    · cases h
  exact Snapshot.read_writable hfinite ha

/-- A snapshot is read back from its text, in both layouts, and whatever text is read as a snapshot
gives one that can be written and read back. Different names are what the table of variables itself
ensures; not-a-number is a single value and equals itself. The reader of numbers is taken to round to
the nearest number, as `Json.realNumeral` does: one that may miss it by a last bit need not read back
what was written. -/
theorem snapshot_read_back (v : Snapshot) :
    (v.Writable → Snapshot.ofText v.compact = .ok v ∧ Snapshot.ofText v.pretty = .ok v) ∧
    ∀ t, Snapshot.ofText t = .ok v →
      v.Writable ∧ Snapshot.ofText v.compact = .ok v ∧ Snapshot.ofText v.pretty = .ok v := by
  have written (h : v.Writable) :
      Snapshot.ofText v.compact = .ok v ∧ Snapshot.ofText v.pretty = .ok v := by
    have hread : Snapshot.read v.toJson.scanned = .ok v := by
      rw [Snapshot.read_scanned h.names_nodup, if_pos h.loop_finite]
    constructor
    · exact (decode_compact Snapshot.read v.toJson).trans hread
    · exact (decode_pretty Snapshot.read v.toJson).trans hread
  refine ⟨written, fun t h => ?_⟩
  have hw := Snapshot.ofText_writable h
  exact ⟨hw, written hw⟩

/-- Numbers that are not finite, texts that look like them, and a loop whose fields disagree. -/
theorem snapshot_read_back_mixed :
    let v : Snapshot :=
      { bindings := [("a", .number Value.nan), ("b", .text "NaN"), ("c", .number (-Value.infinity)),
          ("d", .number 0.1), ("e", .text "\"\\\n\x01\u00e9")]
        loop :=
          { inLoop := true
            loopType := some "repeat"
            whileCondition := some ⟨"a", .below, 1.5⟩ } }
    v.Writable ∧ Snapshot.ofText v.compact = .ok v ∧ Snapshot.ofText v.pretty = .ok v := by
  intro v
  have hw : v.Writable := ⟨by decide, by decide⟩
  exact ⟨hw, (snapshot_read_back v).1 hw⟩

end SentenceScript
