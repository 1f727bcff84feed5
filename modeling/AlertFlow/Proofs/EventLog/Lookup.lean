import AlertFlow.Proofs.EventLog
import AlertFlow.Proofs.Fingerprint

/-!
Looking up the alerts of an event. The event comes out of the log under its number, the fingerprints
out of its texts and the alerts out of the store, and what fails first in this order is reported: of
the texts, all are read before the first alert is looked up. A recorded event is always readable.
-/
namespace AlertFlow

/-! ## Lists read item by item -/

section Traversal

variable {α β ε : Type} {f : α → Except ε β} {l before after : List α} {x : α} {e : ε}

theorem mapM_of_forall₂ {ys : List β} (h : List.Forall₂ (fun x y => f x = .ok y) l ys) :
    l.mapM f = .ok ys := by
  induction h with
  | nil => rfl
  | cons hx _ ih =>
    rw [List.mapM_cons, hx, ih]
    rfl

/-- The first item that cannot be read is the one that is reported. -/
theorem mapM_of_first_error (h : ∀ y ∈ before, ∃ b, f y = .ok b) (hx : f x = .error e) :
    (before ++ x :: after).mapM f = .error e := by
  induction before with
  | nil =>
    rw [List.nil_append, List.mapM_cons, hx]
    rfl
  | cons y before ih =>
    obtain ⟨⟨b, hb⟩, hbefore⟩ := List.forall_mem_cons.1 h
    rw [List.cons_append, List.mapM_cons, hb, ih hbefore]
    rfl

/-- Whatever is reported is reported of some item. -/
theorem exists_of_mapM_error (h : l.mapM f = .error e) : ∃ x ∈ l, f x = .error e := by
  induction l with
  | nil => cases h
  | cons x l ih =>
    rw [List.mapM_cons] at h
    cases hx : f x with
    | error e' =>
      rw [hx] at h
      cases h
      exact ⟨x, List.mem_cons_self, hx⟩
    | ok b =>
      rw [hx] at h
      cases hl : l.mapM f with
      | error e' =>
        rw [hl] at h
        cases h
        obtain ⟨y, hy, he⟩ := ih hl
        exact ⟨y, List.mem_cons_of_mem x hy, he⟩
      | ok bs =>
        rw [hl] at h
        cases h

end Traversal

namespace AlertStore

variable {store : AlertStore} {fp : Fingerprint} {fingerprints : List Fingerprint}

theorem get_eq_ok {a : Alert} : store.get fp = .ok a ↔ store.alerts.get? fp = some a := by
  rw [get]
  cases store.alerts.get? fp <;> simp

theorem get_eq_error {e : StoreError} (h : store.get fp = .error e) : e = .notFound := by
  unfold get at h
  split at h
  · cases h
  · cases h
    rfl

/-- If every fingerprint is known, its alerts are found in order. -/
theorem mapM_get {found : List Alert} (h : fingerprints.map store.alerts.get? = found.map some) :
    fingerprints.mapM store.get = .ok found := by
  rw [← List.forall₂_eq_eq_eq, List.forall₂_map_left_iff, List.forall₂_map_right_iff] at h
  exact mapM_of_forall₂ (h.imp fun _ _ => get_eq_ok.2)

/-- If a fingerprint is unknown, all that is reported is that something was not found. -/
theorem mapM_get_of_unknown (h : ∃ fp ∈ fingerprints, store.alerts.get? fp = none) :
    fingerprints.mapM store.get = .error .notFound := by
  induction fingerprints with
  | nil =>
    obtain ⟨fp, hmem, -⟩ := h
    cases hmem
  | cons first rest ih =>
    rw [List.mapM_cons]
    cases hfirst : store.get first with
    | error e =>
      rw [get_eq_error hfirst]
      rfl
    | ok a =>
      have hrest : ∃ fp ∈ rest, store.alerts.get? fp = none := by
        obtain ⟨fp, hmem, hnone⟩ := h
        refine ⟨fp, (List.mem_cons.1 hmem).resolve_left fun heq => ?_, hnone⟩
        rw [get, ← heq, hnone] at hfirst
        cases hfirst
      rw [ih hrest]
      rfl

end AlertStore

namespace EventLog

/-! ## What is recorded -/

/-- The events that calls leave in the log, in order and each under its number. -/
def recorded (calls : List Call) : List Event := calls.zipIdx.map fun p => p.1.kept (p.2 + 1)

variable {calls : List Call} {e : Event} {id : Nat}

/-- Calls are numbered from one. -/
theorem mem_recorded :
    e ∈ recorded calls ↔ ∃ (k : Nat) (hk : k < calls.length), e = calls[k].kept (k + 1) := by
  rw [recorded, List.mem_map]
  constructor
  · rintro ⟨⟨c, k⟩, hmem, rfl⟩
    have hget : calls[k]? = some c := by simpa using List.mem_zipIdx_iff_getElem?.1 hmem
    obtain ⟨hk, rfl⟩ := List.getElem?_eq_some_iff.1 hget
    exact ⟨k, hk, rfl⟩
  · rintro ⟨k, hk, rfl⟩
    refine ⟨(calls[k], k), ?_, rfl⟩
    simp [List.mem_zipIdx_iff_getElem?]

/-- A recorded event is in the log under its number. -/
theorem get_of_recorded (hvalid : ∀ c ∈ calls, c.Valid) (hroom : calls.length < signedLimit)
    (he : e ∈ recorded calls) : (({} : EventLog).addAll calls).2.get e.id = .ok e := by
  obtain ⟨k, hk, rfl⟩ := mem_recorded.1 he
  have hrows : (({} : EventLog).addAll calls).2.rows =
      (calls.map Call.row).take k ++ calls[k].row :: (calls.map Call.row).drop (k + 1) := by
    have hlt : k < (calls.map Call.row).length := by simpa using hk
    have hrow : (calls.map Call.row)[k] = calls[k].row := List.getElem_map ..
    rw [addAll_eq, ← hrow, ← List.drop_eq_getElem_cons, List.take_append_drop]
    rfl
  have hlength : ((calls.map Call.row).take k).length = k := by
    rw [List.length_take, List.length_map, Nat.min_eq_left (Nat.le_of_lt hk)]
  have hget := get_of_rows (hvalid _ (List.getElem_mem hk)) hrows (by omega)
  rw [hlength] at hget
  exact hget

/-- The log has nothing under a number of no recorded event. -/
theorem get_of_unrecorded (h : ∀ e ∈ recorded calls, e.id ≠ id) :
    (({} : EventLog).addAll calls).2.get id = .error .notFound := by
  rw [addAll_eq, get]
  split
  · rfl
  · next hid =>
    have hnone : (calls.map Call.row)[id - 1]? = none := by
      rw [List.getElem?_eq_none_iff, List.length_map]
      by_contra hlt
      refine h _ (mem_recorded.2 ⟨id - 1, Nat.not_le.1 hlt, rfl⟩) ?_
      show id - 1 + 1 = id
      omega
    simp only [List.nil_append, hnone]

/-! ## Looking up the alerts of an event -/

variable {log : EventLog} {store : AlertStore}

theorem alertsOf_of_get_error {err : StoreError} (h : log.get id = .error err) :
    log.alertsOf store id = .error (.store err) := by
  unfold alertsOf
  rw [h]
  rfl

theorem alertsOf_of_get (h : log.get id = .ok e) :
    log.alertsOf store id =
      ((e.alerts.mapM Fingerprint.read).mapError ServiceError.domain).bind fun fingerprints =>
        lift (fingerprints.mapM store.get) := by
  unfold alertsOf
  rw [h]
  rfl

/-- The first text that is no fingerprint is reported, whether or not the alerts of those in front
of it are known. -/
theorem alertsOf_of_unreadable {before after : List String} {bad : String} (h : log.get id = .ok e)
    (htexts : e.alerts = before ++ bad :: after)
    (hbefore : ∀ text ∈ before, ∃ n, Fingerprint.Spells text n)
    (hbad : ∀ n, ¬ Fingerprint.Spells bad n) :
    log.alertsOf store id = .error (.domain (.invalidFingerprint bad)) := by
  have hread : ∀ text ∈ before, ∃ fp, Fingerprint.read text = .ok fp := by
    intro text htext
    obtain ⟨n, hn⟩ := hbefore text htext
    cases hfp : Fingerprint.read text with
    | ok fp => exact ⟨fp, rfl⟩
    | error err => exact absurd hn ((Fingerprint.read_eq_error.1 hfp).1 n)
  have herror := Fingerprint.read_eq_error.2 ⟨hbad, rfl⟩
  rw [alertsOf_of_get h, htexts, mapM_of_first_error hread herror]
  rfl

/-- If all texts are fingerprints, the store is asked for them in order. -/
theorem alertsOf_of_readable {fingerprints : List Fingerprint} (h : log.get id = .ok e)
    (htexts : List.Forall₂ (fun text fp => Fingerprint.Spells text fp.bits.toNat) e.alerts
      fingerprints) :
    log.alertsOf store id = lift (fingerprints.mapM store.get) := by
  have hread := htexts.imp fun _ _ hspells => Fingerprint.read_eq_ok.2 hspells
  rw [alertsOf_of_get h, mapM_of_forall₂ hread]
  rfl

/-- The alerts of an event that lists hexadecimal fingerprints are those stored under them. -/
theorem alertsOf_eq {fingerprints : List Fingerprint} {found : List Alert}
    (h : log.get id = .ok e) (htexts : e.alerts = fingerprints.map Fingerprint.hex)
    (hfound : fingerprints.map store.alerts.get? = found.map some) :
    log.alertsOf store id = .ok found := by
  have hspells : List.Forall₂ (fun text fp => Fingerprint.Spells text fp.bits.toNat) e.alerts
      fingerprints := by
    rw [htexts, List.forall₂_map_left_iff, List.forall₂_same]
    exact fun fp _ => Fingerprint.read_eq_ok.1 fp.read_hex
  rw [alertsOf_of_readable h hspells, AlertStore.mapM_get hfound]
  rfl

/-- Of an event that is recorded or not, nothing is reported but what the client can have caused. -/
theorem alertsOf_error {err : ServiceError}
    (hget : log.get id = .error .notFound ∨ ∃ e, log.get id = .ok e)
    (h : log.alertsOf store id = .error err) :
    err = .store .notFound ∨ ∃ bad, err = .domain (.invalidFingerprint bad) := by
  rcases hget with hget | ⟨e, hget⟩
  · rw [alertsOf_of_get_error hget] at h
    cases h
    exact .inl rfl
  · rw [alertsOf_of_get hget] at h
    cases hread : e.alerts.mapM Fingerprint.read with
    | error d =>
      rw [hread] at h
      cases h
      obtain ⟨bad, -, hbad⟩ := exists_of_mapM_error hread
      exact .inr ⟨bad, congrArg ServiceError.domain (Fingerprint.read_eq_error.1 hbad).2⟩
    | ok fingerprints =>
      rw [hread] at h
      cases hfound : fingerprints.mapM store.get with
      | error d =>
        obtain ⟨fp, -, hfp⟩ := exists_of_mapM_error hfound
        have h : lift (fingerprints.mapM store.get) = .error err := h
        rw [hfound, AlertStore.get_eq_error hfp] at h
        cases h
        exact .inl rfl
      | ok found =>
        have h : lift (fingerprints.mapM store.get) = .error err := h
        rw [hfound] at h
        cases h

end EventLog

end AlertFlow
