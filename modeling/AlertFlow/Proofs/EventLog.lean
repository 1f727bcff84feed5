import AlertFlow.EventLog
import AlertFlow.Proofs.Json.RoundTrip
import AlertFlow.Proofs.Time.Timestamp

/-!
The event log keeps what it is given. An event goes into the log as JSON text and comes back by
reading that text, so nothing but the identifier and an absent creation time may differ from what
was submitted.
-/
namespace AlertFlow

open Json

namespace Event

/-! ## Events and their JSON -/

theorem written_toJson (e : Event) : e.toJson.Written := by
  refine .record fun m hm => ?_
  rcases List.mem_append.1 hm with hm | hm
  · simp only [List.mem_cons, List.not_mem_nil, or_false] at hm
    rcases hm with rfl | rfl | rfl | rfl
    · exact .nat e.id
    · exact .strings e.alerts
    · exact .string e.comment
    · exact .string e.createdBy
  · obtain ⟨t, -, rfl⟩ := Option.map_eq_some_iff.1 (Option.mem_toList.1 hm)
    exact .string (Timestamp.write t)

/-- The fields of the object that is written for an event. -/
def Fields.of (e : Event) : Fields where
  id := some e.id
  alerts := some e.alerts
  comment := some e.comment
  createdBy := some e.createdBy
  createdAt := e.createdAt.map some

theorem collect_toJson {e : Event} (hid : e.id < wordLimit) (hat : ∀ t ∈ e.createdAt, t.Exists) :
    recordReader.collect {} e.toJson = .ok (.of e) := by
  obtain ⟨id, alerts, comment, createdBy, createdAt⟩ := e
  refine RecordReader.collect_fill rfl (asWord_nat hid) (fun _ => rfl) ?_
  refine RecordReader.collect_fill rfl (asList_strings alerts) (fun _ => rfl) ?_
  refine RecordReader.collect_fill rfl (asString_string comment) (fun _ => rfl) ?_
  refine RecordReader.collect_fill rfl (asString_string createdBy) (fun _ => rfl) ?_
  cases createdAt with
  | none => rfl
  | some t =>
    have htime := asOptional_string (asText_string (Timestamp.read?_write (hat t rfl)))
    exact RecordReader.collect_fill rfl htime (fun _ => rfl) rfl

/-- An event is read back from its own JSON. -/
theorem ofJson_toJson {e : Event} (hid : e.id < wordLimit) (hat : ∀ t ∈ e.createdAt, t.Exists) :
    ofJson e.toJson = .ok e := by
  rw [ofJson, collect_toJson hid hat]
  obtain ⟨id, alerts, comment, createdBy, _ | createdAt⟩ := e <;> rfl

/-- An event is read back from its text. -/
theorem decode_write {e : Event} (hid : e.id < wordLimit) (hat : ∀ t ∈ e.createdAt, t.Exists) :
    Json.decode ofJson e.toJson.write = .ok e := by
  rw [Json.decode_write ofJson e.written_toJson, ofJson_toJson hid hat]

/-! ## What is read of an event -/

/-- A 64-bit identifier, and a creation time that has a text. -/
structure Fields.Sound (f : Fields) : Prop where
  id : ∀ n ∈ f.id, n < wordLimit
  createdAt : ∀ t ∈ f.createdAt.join, ∃ text, Timestamp.read? text = some t

theorem Fields.Sound.read {name : String} {j : Json} {f f' : Fields}
    (h : Fields.read name j f = .ok f') (hf : f.Sound) : f'.Sound := by
  unfold Fields.read at h
  split at h
  case h_1 =>
    obtain ⟨id, hid, h⟩ := bind_eq_ok.1 h
    obtain ⟨-, n, hn, rfl⟩ := fill_eq_ok.1 hid
    cases h
    refine ⟨fun m hm => ?_, hf.createdAt⟩
    cases hm
    exact asWord_lt hn
  case h_5 =>
    obtain ⟨createdAt, hat, h⟩ := bind_eq_ok.1 h
    obtain ⟨-, o, ho, rfl⟩ := fill_eq_ok.1 hat
    cases h
    refine ⟨hf.id, fun t ht => ?_⟩
    obtain rfl : o = some t := ht
    unfold asOptional at ho
    split at ho
    · cases ho
    · obtain ⟨u, hu, hut⟩ := map_eq_ok.1 ho
      cases hut
      exact of_asText_eq_ok hu
  case h_6 =>
    cases h
    exact hf
  all_goals
    -- the other fields are any texts
    obtain ⟨_, -, h⟩ := bind_eq_ok.1 h
    cases h
    exact ⟨hf.id, hf.createdAt⟩

theorem sound_of_collect {j : Json} {f : Fields} (h : recordReader.collect {} j = .ok f) :
    f.Sound := by
  refine RecordReader.collect_keeps (fun name j f f' h hf => hf.read h) h ⟨?_, ?_⟩
  · exact fun n hn => by cases hn
  · exact fun t ht => by cases ht

end Event

namespace EventLog

/-- A call that records an event, and when it is made. -/
structure Call where
  event : Event
  now : Instant

namespace Call

/-- What a caller can hand over: a 64-bit identifier, a creation time that has a text, and the time
that a clock shows. -/
structure Valid (c : Call) : Prop where
  id : c.event.id < wordLimit
  createdAt : ∀ t ∈ c.event.createdAt, ∃ text, Timestamp.read? text = some t
  now : c.now.Exists

/-- An event that is read of JSON can be handed over. -/
theorem Valid.of_ofJson {j : Json} {e : Event} {now : Instant} (h : Event.ofJson j = .ok e)
    (hnow : now.Exists) : Valid ⟨e, now⟩ := by
  obtain ⟨f, hf, he⟩ := bind_eq_ok.1 h
  have hsound := Event.sound_of_collect hf
  cases he
  refine ⟨?_, hsound.createdAt, hnow⟩
  show f.id.getD 0 < wordLimit
  cases hid : f.id with
  | none => decide
  | some n => exact hsound.id n hid

/-- The event that is kept of a call, under its identifier. -/
def kept (c : Call) (id : Nat) : Event :=
  { c.event with id := id, createdAt := some (c.event.createdAt.getD c.now) }

/-- The text that is stored for a call. -/
def row (c : Call) : String := (c.kept c.event.id).toJson.write

end Call

/-- The identifiers that calls are given, one call after the other, and the log after them. -/
def addAll (log : EventLog) : List Call → List Nat × EventLog
  | [] => ([], log)
  | c :: calls =>
    let (id, log) := log.add c.event c.now
    let (ids, log) := log.addAll calls
    (id :: ids, log)

theorem add_eq (log : EventLog) (c : Call) :
    log.add c.event c.now = (log.rows.length + 1, ⟨log.rows ++ [c.row]⟩) := by
  rfl

theorem addAll_eq (log : EventLog) (calls : List Call) :
    log.addAll calls =
      (List.range' (log.rows.length + 1) calls.length, ⟨log.rows ++ calls.map Call.row⟩) := by
  induction calls generalizing log with
  | nil => simp [addAll]
  | cons c calls ih =>
    rw [addAll, add_eq]
    simp only [ih, List.length_append, List.length_cons, List.length_nil, List.map_cons,
      List.append_assoc, List.singleton_append, List.range'_succ]

theorem addAll_append (log : EventLog) (calls more : List Call) :
    (log.addAll (calls ++ more)).2 = ((log.addAll calls).2.addAll more).2 := by
  simp only [addAll_eq, List.map_append, List.append_assoc]

/-- A stored text is read as the event that is kept, whichever identifier was submitted in it. -/
theorem decodeRow_row {c : Call} (h : c.Valid) (id : Nat) :
    decodeRow id c.row = .ok (c.kept id) := by
  have hat : (c.event.createdAt.getD c.now).Exists := by
    cases hat : c.event.createdAt with
    | none => exact h.now
    | some t =>
      obtain ⟨text, htext⟩ := h.createdAt t hat
      exact Timestamp.exists_of_read? htext
  have hdecode : Json.decode Event.ofJson c.row = .ok (c.kept c.event.id) := by
    refine Event.decode_write h.id fun t ht => ?_
    cases ht
    exact hat
  rw [decodeRow, hdecode]
  rfl

theorem mapM_decodeRow {calls : List Call} (h : ∀ c ∈ calls, c.Valid) (n : Nat) :
    ((calls.map Call.row).zipIdx n).mapM (fun p => decodeRow (p.2 + 1) p.1) =
      .ok ((calls.zipIdx n).map fun p => p.1.kept (p.2 + 1)) := by
  induction calls generalizing n with
  | nil => rfl
  | cons c calls ih =>
    obtain ⟨hc, hcalls⟩ := List.forall_mem_cons.1 h
    rw [List.map_cons, List.zipIdx_cons, List.mapM_cons, decodeRow_row hc, ih hcalls]
    rfl

/-- A row is read under its number, whatever was recorded before and after it. -/
theorem get_of_rows {log : EventLog} {c : Call} {before after : List String} (h : c.Valid)
    (hrows : log.rows = before ++ c.row :: after) (hroom : before.length + 1 < signedLimit) :
    log.get (before.length + 1) = .ok (c.kept (before.length + 1)) := by
  have hrow : log.rows[before.length]? = some c.row := by
    rw [hrows, List.getElem?_append_right (Nat.le_refl _), Nat.sub_self]
    rfl
  rw [get, if_neg (by omega)]
  simp only [Nat.add_sub_cancel, hrow]
  exact decodeRow_row h _

/-- **The log is faithful.** Calls are numbered from one. Afterwards the log lists their events in
order, each under its number and otherwise as submitted, an absent creation time being the time of
the call; and it has the same event under each number and none under any other. Row numbers are
signed 64-bit numbers, so there are fewer calls than half of the identifiers. -/
theorem events_kept {calls : List Call} (hvalid : ∀ c ∈ calls, c.Valid)
    (hroom : calls.length < signedLimit) :
    ∃ log, ({} : EventLog).addAll calls = (List.range' 1 calls.length, log) ∧
      log.all = .ok (calls.zipIdx.map fun p => p.1.kept (p.2 + 1)) ∧
      (∀ (k : Nat) (hk : k < calls.length), log.get (k + 1) = .ok (calls[k].kept (k + 1))) ∧
      ∀ id, id = 0 ∨ calls.length < id → log.get id = .error .notFound := by
  refine ⟨⟨calls.map Call.row⟩, addAll_eq {} calls, mapM_decodeRow hvalid 0, ?_, ?_⟩
  · intro k hk
    have hrow : (calls.map Call.row)[k]? = some calls[k].row := by
      rw [List.getElem?_map, List.getElem?_eq_getElem hk, Option.map_some]
    rw [get, if_neg (by omega)]
    simp only [Nat.add_sub_cancel, hrow]
    exact decodeRow_row (hvalid _ (List.getElem_mem hk)) _
  · intro id hid
    rw [get]
    split
    · rfl
    · have hnone : (calls.map Call.row)[id - 1]? = none := by
        rw [List.getElem?_eq_none_iff, List.length_map]
        omega
      simp only [hnone]

/-- A note with control characters, made in the leap second that ends the year before the year 0,
under the largest identifier there is. -/
def leapNote : Event where
  id := 18446744073709551615
  alerts := ["00000000000000ff", "", "no fingerprint"]
  comment := "tab\tquote\"slash\\null\u0000delete\x7f𝔘"
  createdBy := "\u001f"
  createdAt := some ⟨(Date.mk (-1) 12 31).toDays * 86400 + 86399, 1123456789⟩

theorem two_events_kept :
    ∃ log, ({} : EventLog).addAll [⟨leapNote, ⟨0, 0⟩⟩, ⟨{}, ⟨1736935200, 250000000⟩⟩] =
        ([1, 2], log) ∧
      log.all = .ok [{ leapNote with id := 1 },
        { id := 2, createdAt := some ⟨1736935200, 250000000⟩ }] ∧
      log.get 1 = .ok { leapNote with id := 1 } ∧ log.get 0 = .error .notFound ∧
      log.get 9223372036854775808 = .error .notFound := by
  have hvalid : ∀ c ∈ [Call.mk leapNote ⟨0, 0⟩, Call.mk {} ⟨1736935200, 250000000⟩], c.Valid := by
    intro c hc
    simp only [List.mem_cons, List.not_mem_nil, or_false] at hc
    rcases hc with rfl | rfl
    · refine ⟨by decide, fun t ht => Timestamp.readable_iff.2 ?_, by decide⟩
      cases ht
      decide
    · exact ⟨by decide, fun t ht => (by cases ht), by decide⟩
  obtain ⟨log, hadd, hall, hget, hother⟩ := events_kept hvalid (by decide)
  exact ⟨log, hadd, hall, hget 0 (by decide), hother 0 (.inl rfl), hother _ (.inr (by decide))⟩

end EventLog

end AlertFlow
