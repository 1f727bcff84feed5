import AlertFlow.Http
import AlertFlow.Proofs.EventLog.Lookup
import AlertFlow.Proofs.Http.Path

/-!
Asking for the alerts of an event. The number of the event comes out of the path, and is read before
anything is looked up. A client is told which text cannot be read, or that something was not found;
no failure is the server's own, because whatever requests came in, the log holds only events that
can be read.
-/
namespace AlertFlow

namespace Http

/-! ## What the client is told -/

/-- An answer that refuses a request: a status, and a text for the client. -/
def refusal (status : Nat) (text : String) : Response :=
  { status, body := some (.record [("error", .string text)]) }

@[simp] theorem refusal_status (status : Nat) (text : String) :
    (refusal status text).status = status := rfl

@[simp] theorem ok_status (body : Json) : (Response.ok body).status = 200 := rfl

theorem refusal_inj {status status' : Nat} {text text' : String}
    (h : refusal status text = refusal status' text') : status = status' ∧ text = text' := by
  simpa [refusal, Json.record] using h

/-- A request for the alerts of the event that a text identifies. -/
structure AsksFor (r : Request) (text : String) : Prop where
  method : r.method = "GET"
  target : ∃ segment, resource? r.target = some (.alertsOfEvent segment) ∧
    Path.decode? segment = some text

/-- The answer to one who asks for the alerts of the event that a text identifies, given the events
and the alerts there are. Each case takes for granted what the cases in front of it exclude. -/
structure Resolves (events : List Event) (alerts : Table Fingerprint Alert) (text : String)
    (response : Response) : Prop where
  noNumber : response = refusal 400 ("invalid event id: " ++ text) ↔ ∀ id, ¬ Decimal.Spells text id
  noEvent : ∀ id, Decimal.Spells text id → (∀ e ∈ events, e.id ≠ id) →
    response = refusal 404 "resource not found"
  noFingerprint : ∀ e ∈ events, Decimal.Spells text e.id → ∀ before bad after,
    e.alerts = before ++ bad :: after → (∀ t ∈ before, ∃ n, Fingerprint.Spells t n) →
    (∀ n, ¬ Fingerprint.Spells bad n) → response = refusal 400 ("invalid fingerprint: " ++ bad)
  noAlert : ∀ e ∈ events, Decimal.Spells text e.id → ∀ fingerprints : List Fingerprint,
    List.Forall₂ (fun t fp => Fingerprint.Spells t fp.bits.toNat) e.alerts fingerprints →
    (∃ fp ∈ fingerprints, alerts.get? fp = none) → response = refusal 404 "resource not found"
  found : ∀ e ∈ events, Decimal.Spells text e.id → ∀ fingerprints : List Fingerprint,
    List.Forall₂ (fun t fp => Fingerprint.Spells t fp.bits.toNat) e.alerts fingerprints →
    ∀ stored : List Alert, fingerprints.map alerts.get? = stored.map some →
    response = .ok (.array (stored.map Alert.toJson))
  notInternal : response.status ≠ 500

variable {text : String} {id : Nat} {log : EventLog} {store : AlertStore}

/-- Every text can be asked for. -/
theorem exists_asksFor (text : String) : ∃ r, AsksFor r text := by
  refine ⟨⟨"GET", Path.ofSegments ["", "api", "v1", "events", Path.escaped text, "alerts"], none,
    ""⟩, rfl, Path.escaped text, ?_, Path.decode?_escaped text⟩
  have hplain : ∀ s ∈ ["", "api", "v1", "events", Path.escaped text, "alerts"], Path.Plain s := by
    simp only [List.forall_mem_cons]
    refine ⟨by decide, by decide, by decide, by decide, Path.plain_escaped text, by decide, ?_⟩
    exact fun s hs => absurd hs List.not_mem_nil
  rw [resource?, Path.segments_ofSegments (List.cons_ne_nil _ _) hplain]
  rfl

/-- Who asks is answered by the endpoint, and the server stays as it is. -/
theorem handle_of_asksFor {r : Request} (h : AsksFor r text) (s : Server) (now : Instant) :
    handle s now r = (eventAlerts text s.events s.alerts, s) := by
  obtain ⟨segment, hresource, hdecode⟩ := h.target
  rw [handle, hresource, h.method]
  simp only [get?, hdecode, Option.map_some, Option.getD_some]

theorem eventAlerts_of_unreadable (h : ∀ id, ¬ Decimal.Spells text id) :
    eventAlerts text log store = refusal 400 ("invalid event id: " ++ text) := by
  have hnone : Decimal.readWord? text = none :=
    Option.eq_none_iff_forall_ne_some.2 fun id hid => h id (Decimal.readWord?_eq_some.1 hid)
  rw [eventAlerts, hnone]
  rfl

theorem eventAlerts_of_ok {alerts : List Alert} (hid : Decimal.Spells text id)
    (h : log.alertsOf store id = .ok alerts) :
    eventAlerts text log store = .ok (.array (alerts.map Alert.toJson)) := by
  rw [eventAlerts, Decimal.readWord?_eq_some.2 hid]
  simp only [h]

theorem eventAlerts_of_notFound (hid : Decimal.Spells text id)
    (h : log.alertsOf store id = .error (.store .notFound)) :
    eventAlerts text log store = refusal 404 "resource not found" := by
  rw [eventAlerts, Decimal.readWord?_eq_some.2 hid]
  simp only [h]
  rfl

theorem eventAlerts_of_invalid {bad : String} (hid : Decimal.Spells text id)
    (h : log.alertsOf store id = .error (.domain (.invalidFingerprint bad))) :
    eventAlerts text log store = refusal 400 ("invalid fingerprint: " ++ bad) := by
  rw [eventAlerts, Decimal.readWord?_eq_some.2 hid]
  simp only [h]
  rfl

/-- Of a number, a client is told the alerts, that something was not found, or which text is no
fingerprint. -/
theorem eventAlerts_of_spells (store : AlertStore) (hid : Decimal.Spells text id)
    (hget : log.get id = .error .notFound ∨ ∃ e, log.get id = .ok e) :
    (∃ body, eventAlerts text log store = .ok body) ∨
      eventAlerts text log store = refusal 404 "resource not found" ∨
      ∃ bad, eventAlerts text log store = refusal 400 ("invalid fingerprint: " ++ bad) := by
  cases halerts : log.alertsOf store id with
  | ok alerts => exact .inl ⟨_, eventAlerts_of_ok hid halerts⟩
  | error err =>
    rcases EventLog.alertsOf_error hget halerts with rfl | ⟨bad, rfl⟩
    · exact .inr (.inl (eventAlerts_of_notFound hid halerts))
    · exact .inr (.inr ⟨bad, eventAlerts_of_invalid hid halerts⟩)

/-- The text for a number that cannot be read is never that for a fingerprint. -/
theorem invalid_id_ne_invalid_fingerprint (text bad : String) :
    "invalid event id: " ++ text ≠ "invalid fingerprint: " ++ bad := by
  intro h
  -- the texts differ behind the word that they share
  have hchar := congrArg (fun t : String => t.toList[8]?) h
  simp [String.toList_append] at hchar

/-- Only a text that spells no number is refused as one. -/
theorem eventAlerts_eq_unreadable_iff
    (hget : ∀ id, log.get id = .error .notFound ∨ ∃ e, log.get id = .ok e) :
    eventAlerts text log store = refusal 400 ("invalid event id: " ++ text) ↔
      ∀ id, ¬ Decimal.Spells text id := by
  refine ⟨fun h id hid => ?_, eventAlerts_of_unreadable⟩
  rcases eventAlerts_of_spells store hid (hget id) with ⟨body, hok⟩ | hother | ⟨bad, hbad⟩
  · have hstatus := congrArg Response.status (hok.symm.trans h)
    simp at hstatus
  · exact absurd (refusal_inj (hother.symm.trans h)).1 (by decide)
  · exact invalid_id_ne_invalid_fingerprint text bad (refusal_inj (h.symm.trans hbad)).2

theorem eventAlerts_status_ne
    (hget : ∀ id, log.get id = .error .notFound ∨ ∃ e, log.get id = .ok e) :
    (eventAlerts text log store).status ≠ 500 := by
  by_cases hnone : ∀ id, ¬ Decimal.Spells text id
  · simp [eventAlerts_of_unreadable hnone]
  · push Not at hnone
    obtain ⟨id, hid⟩ := hnone
    rcases eventAlerts_of_spells store hid (hget id) with ⟨_, h⟩ | h | ⟨_, h⟩ <;>
      simp [h]

/-- Under every number there is an event that can be read, or there is nothing. -/
theorem get_recorded_or_not {calls : List EventLog.Call} (hvalid : ∀ c ∈ calls, c.Valid)
    (hroom : calls.length < signedLimit) (id : Nat) :
    (({} : EventLog).addAll calls).2.get id = .error .notFound ∨
      ∃ e, (({} : EventLog).addAll calls).2.get id = .ok e := by
  by_cases hnone : ∀ e ∈ EventLog.recorded calls, e.id ≠ id
  · exact .inl (EventLog.get_of_unrecorded hnone)
  · push Not at hnone
    obtain ⟨e, he, rfl⟩ := hnone
    exact .inr ⟨e, EventLog.get_of_recorded hvalid hroom he⟩

/-- The endpoint resolves the events that calls recorded. -/
theorem resolves_eventAlerts {calls : List EventLog.Call} (hvalid : ∀ c ∈ calls, c.Valid)
    (hroom : calls.length < signedLimit) (store : AlertStore) (text : String) :
    Resolves (EventLog.recorded calls) store.alerts text
      (eventAlerts text (({} : EventLog).addAll calls).2 store) where
  noNumber := eventAlerts_eq_unreadable_iff (get_recorded_or_not hvalid hroom)
  noEvent _ hid hnone :=
    eventAlerts_of_notFound hid
      (EventLog.alertsOf_of_get_error (EventLog.get_of_unrecorded hnone))
  noFingerprint _ he hid _ _ _ htexts hbefore hbad :=
    eventAlerts_of_invalid hid
      (EventLog.alertsOf_of_unreadable (EventLog.get_of_recorded hvalid hroom he) htexts hbefore
        hbad)
  noAlert e he hid fingerprints htexts hunknown := by
    refine eventAlerts_of_notFound hid ?_
    rw [EventLog.alertsOf_of_readable (EventLog.get_of_recorded hvalid hroom he) htexts,
      AlertStore.mapM_get_of_unknown hunknown]
    rfl
  found e he hid fingerprints htexts stored hstored := by
    refine eventAlerts_of_ok hid ?_
    rw [EventLog.alertsOf_of_readable (EventLog.get_of_recorded hvalid hroom he) htexts,
      AlertStore.mapM_get hstored]
    rfl
  notInternal := eventAlerts_status_ne (get_recorded_or_not hvalid hroom)

/-! ## What requests leave in the log -/

/-- The call that a request makes for to record an event, if it does. -/
def call? (now : Instant) (r : Request) : Option EventLog.Call :=
  match resource? r.target, r.method, readBody r Event.ofJson with
  | some .events, "POST", .ok e => some ⟨e, now⟩
  | _, _, _ => none

/-- The calls that requests make, each with the time at which it arrives. -/
def callsOf (requests : List (Instant × Request)) : List EventLog.Call :=
  requests.filterMap fun p => call? p.1 p.2

/-- Answers requests, one after the other. -/
def handleAll (s : Server) (requests : List (Instant × Request)) : Server :=
  requests.foldl (fun s p => (handle s p.1 p.2).2) s

/-- An event that is read out of a body can be recorded. -/
theorem valid_of_readBody {r : Request} {e : Event} {now : Instant}
    (h : readBody r Event.ofJson = .ok e) (hnow : now.Exists) : EventLog.Call.Valid ⟨e, now⟩ := by
  unfold readBody at h
  split at h
  · cases hdecode : Json.decode Event.ofJson r.body with
    | ok e' =>
      rw [hdecode] at h
      cases h
      obtain ⟨_, hread, hclosed⟩ := Json.bind_eq_ok.1 hdecode
      split at hclosed
      · cases hclosed
        exact .of_ofJson hread hnow
      · cases hclosed
    | error fault =>
      rw [hdecode] at h
      cases fault <;> cases h
  · cases h

theorem valid_of_mem_callsOf {requests : List (Instant × Request)} {c : EventLog.Call}
    (htimes : ∀ p ∈ requests, p.1.Exists) (h : c ∈ callsOf requests) : c.Valid := by
  obtain ⟨p, hp, hc⟩ := List.mem_filterMap.1 h
  unfold call? at hc
  split at hc
  · next hread =>
    cases hc
    exact valid_of_readBody hread (htimes p hp)
  · cases hc

/-- A request records the event of the call that it makes, and nothing else. -/
theorem events_handle (s : Server) (now : Instant) (r : Request) :
    (handle s now r).2.events = (s.events.addAll (call? now r).toList).2 := by
  unfold handle call?
  cases resource? r.target with
  | none => rfl
  | some resource =>
    cases resource with
    | events =>
      dsimp only [get?, post?]
      split
      · next hmethod =>
        rw [hmethod]
        rfl
      · next hmethod =>
        rw [hmethod]
        rfl
      · next hmethod =>
        rw [hmethod]
        cases readBody r Event.ofJson <;> rfl
      · next hmethod =>
        split
        · next h _ => exact absurd h hmethod
        · rfl
    | alerts =>
      dsimp only [get?, post?]
      split
      · rfl
      · rfl
      · cases readBody r (Json.asList RawAlert.ofJson) <;> rfl
      · rfl
    | _ =>
      dsimp only [get?, post?]
      split <;> rfl

theorem events_handleAll (s : Server) (requests : List (Instant × Request)) :
    (handleAll s requests).events = (s.events.addAll (callsOf requests)).2 := by
  induction requests generalizing s with
  | nil => rfl
  | cons p requests ih =>
    have hcalls : callsOf (p :: requests) = (call? p.1 p.2).toList ++ callsOf requests := by
      rw [callsOf, List.filterMap_cons]
      cases call? p.1 p.2 <;> rfl
    rw [handleAll, List.foldl_cons, ← handleAll, ih, events_handle, hcalls,
      EventLog.addAll_append]

/-- **Resolving an event.** Calls have recorded their events, and any requests have come in behind
them, some of which recorded events as well. Then every text can be asked for, and who asks for the
alerts of the event it identifies is told what the text, the recorded events and the stored alerts
determine, whatever the store holds. No failure is the server's own, and nothing that is stored
changes. -/
theorem event_resolved {calls : List EventLog.Call} {requests : List (Instant × Request)}
    (hvalid : ∀ c ∈ calls, c.Valid) (htimes : ∀ p ∈ requests, p.1.Exists)
    (hroom : (calls ++ callsOf requests).length < signedLimit) (server : Server) (now : Instant)
    (text : String) :
    let s := handleAll { server with events := (({} : EventLog).addAll calls).2 } requests
    (∃ r, AsksFor r text) ∧ ∀ r, AsksFor r text →
      Resolves (EventLog.recorded (calls ++ callsOf requests)) s.alerts.alerts text
        (handle s now r).1 ∧
      (handle s now r).2 = s := by
  intro s
  refine ⟨exists_asksFor text, fun r hr => ?_⟩
  have hlog : s.events = (({} : EventLog).addAll (calls ++ callsOf requests)).2 := by
    rw [events_handleAll, EventLog.addAll_append]
  have hall : ∀ c ∈ calls ++ callsOf requests, c.Valid :=
    List.forall_mem_append.2 ⟨hvalid, fun c => valid_of_mem_callsOf htimes⟩
  rw [handle_of_asksFor hr, hlog]
  exact ⟨resolves_eventAlerts hall hroom s.alerts text, rfl⟩

/-- An alert whose fingerprint is `88b2f62b195d7b04`. -/
def downAlert : Alert := { labels := .ofList [("alertname", "Down")], startsAt := ⟨0, 0⟩ }

/-- Notes of an alert that is not stored and of what is no alert, and of one alert twice. -/
def downNotes : List EventLog.Call :=
  [⟨{ alerts := ["1", "pear"] }, ⟨0, 0⟩⟩,
    ⟨{ alerts := ["88b2f62b195d7b04", "+88B2F62B195D7B04"] }, ⟨1736935200, 250000000⟩⟩]

/-- A server that has one alert stored. -/
def downServer : Server where
  alerts := (AlertStore.ofCapacity 1).put [downAlert]
  engine :=
    { tree :=
        { id := .ofNat 1
          options :=
            { receiver := "desk", groupWait := .ofSecs 30, groupInterval := .ofSecs 300,
              repeatInterval := .ofSecs 14400 }
          matchers := .empty, continues := false, children := [] } }

/-- A request that records one more event, which names an alert that is not stored. -/
def downRequest : Request where
  method := "POST"
  target := "/api/v1/events"
  contentType := some "application/json"
  body := "\x7b\"alerts\":[\"1\"]\x7d"

theorem resource?_downRequest : resource? downRequest.target = some .events := by
  have hsegments : Path.segments downRequest.target = ["", "api", "v1", "events"] := by
    decide +kernel
  rw [resource?, hsegments]
  rfl

theorem readBody_downRequest : readBody downRequest Event.ofJson = .ok { alerts := ["1"] } := by
  have hjson : (downRequest.contentType.map MediaType.isJson).getD false = true := by
    decide +kernel
  have hdecode : Json.decode Event.ofJson downRequest.body = .ok { alerts := ["1"] } := by
    decide +kernel
  rw [readBody, if_pos hjson, hdecode]

theorem callsOf_downRequest :
    callsOf [(⟨0, 0⟩, downRequest)] = [⟨{ alerts := ["1"] }, ⟨0, 0⟩⟩] := by
  simp only [callsOf, List.filterMap_cons, call?, resource?_downRequest, readBody_downRequest]
  rfl

theorem alerts_downRequest (s : Server) (now : Instant) :
    (handleAll s [(now, downRequest)]).alerts = s.alerts := by
  have hmethod : downRequest.method = "POST" := rfl
  simp only [handleAll, List.foldl_cons, List.foldl_nil, handle, resource?_downRequest, hmethod,
    post?, readBody_downRequest, Option.getD_some]

theorem down_notes_resolved :
    let s := handleAll { downServer with events := (({} : EventLog).addAll downNotes).2 }
      [(⟨0, 0⟩, downRequest)]
    (∃ r, AsksFor r "+01" ∧
      (handle s ⟨0, 0⟩ r).1 = refusal 400 "invalid fingerprint: pear") ∧
      (∃ r, AsksFor r "2" ∧
        (handle s ⟨0, 0⟩ r).1 = .ok (.array [downAlert.toJson, downAlert.toJson])) ∧
      (∃ r, AsksFor r "3" ∧ (handle s ⟨0, 0⟩ r).1 = refusal 404 "resource not found") ∧
      ∃ r, AsksFor r "-1" ∧ (handle s ⟨0, 0⟩ r).1 = refusal 400 "invalid event id: -1" := by
  have hvalid : ∀ c ∈ downNotes, c.Valid := by
    simp only [downNotes, List.forall_mem_cons]
    refine ⟨⟨by decide, fun t ht => (by cases ht), by decide⟩,
      ⟨by decide, fun t ht => (by cases ht), by decide⟩, fun c hc => absurd hc List.not_mem_nil⟩
  have htimes : ∀ p ∈ [((⟨0, 0⟩ : Instant), downRequest)], p.1.Exists :=
    List.forall_mem_singleton.2 (by decide)
  have hroom : (downNotes ++ callsOf [(⟨0, 0⟩, downRequest)]).length < signedLimit := by
    rw [callsOf_downRequest]
    decide
  have hresolved := event_resolved hvalid htimes hroom downServer ⟨0, 0⟩
  rw [callsOf_downRequest] at hresolved
  have hkept := alerts_downRequest
    { downServer with events := (({} : EventLog).addAll downNotes).2 } ⟨0, 0⟩
  -- what is left to know of the server is which alerts it has
  generalize handleAll { downServer with events := (({} : EventLog).addAll downNotes).2 }
    [(⟨0, 0⟩, downRequest)] = s at hkept hresolved ⊢
  dsimp only at hresolved ⊢
  refine ⟨?_, ?_, ?_, ?_⟩
  · obtain ⟨⟨r, hr⟩, hanswers⟩ := hresolved "+01"
    refine ⟨r, hr, (hanswers r hr).1.noFingerprint _
      (EventLog.mem_recorded.2 ⟨0, by decide, rfl⟩) (Decimal.readWord?_eq_some.1 (by decide))
      ["1"] "pear" [] rfl ?_ (Fingerprint.read_eq_error.1 rfl).1⟩
    exact List.forall_mem_singleton.2 ⟨1, Fingerprint.value?_eq_some.1 (by decide)⟩
  · obtain ⟨⟨r, hr⟩, hanswers⟩ := hresolved "2"
    have hfirst : Fingerprint.Spells "88b2f62b195d7b04" downAlert.fingerprint.bits.toNat :=
      Fingerprint.value?_eq_some.1 (by decide +kernel)
    have hsecond : Fingerprint.Spells "+88B2F62B195D7B04" downAlert.fingerprint.bits.toNat :=
      Fingerprint.value?_eq_some.1 (by decide +kernel)
    have hstored : s.alerts.alerts.get? downAlert.fingerprint = some downAlert := by
      rw [hkept]
      exact if_pos rfl
    refine ⟨r, hr, (hanswers r hr).1.found _
      (EventLog.mem_recorded.2 ⟨1, by decide, rfl⟩) (Decimal.readWord?_eq_some.1 (by decide))
      [downAlert.fingerprint, downAlert.fingerprint]
      (.cons hfirst (.cons hsecond .nil)) [downAlert, downAlert] ?_⟩
    simp only [List.map_cons, List.map_nil]
    rw [hstored]
  · obtain ⟨⟨r, hr⟩, hanswers⟩ := hresolved "3"
    have hspells : Fingerprint.Spells "1" (Fingerprint.mk 1).bits.toNat :=
      Fingerprint.value?_eq_some.1 (by decide)
    have hmissing : s.alerts.alerts.get? ⟨1⟩ = none := by
      rw [hkept]
      decide +kernel
    exact ⟨r, hr, (hanswers r hr).1.noAlert _ (EventLog.mem_recorded.2 ⟨2, by decide, rfl⟩)
      (Decimal.readWord?_eq_some.1 (by decide)) [⟨1⟩] (.cons hspells .nil)
      ⟨⟨1⟩, List.mem_singleton_self _, hmissing⟩⟩
  · obtain ⟨⟨r, hr⟩, hanswers⟩ := hresolved "-1"
    refine ⟨r, hr, (hanswers r hr).1.noNumber.2 fun id hid => ?_⟩
    have hnone : Decimal.readWord? "-1" = none := by decide
    rw [Decimal.readWord?_eq_some.2 hid] at hnone
    cases hnone

end Http

end AlertFlow
