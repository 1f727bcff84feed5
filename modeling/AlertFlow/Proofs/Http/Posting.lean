import AlertFlow.Http
import AlertFlow.Proofs.Alert.Stream
import AlertFlow.Proofs.LabelSet

/-!
What posting a batch of alerts does. The batch is checked alert by alert, and the first one that
cannot be taken has the whole batch refused; otherwise the store and every reader of it get the
batch as it was posted.
-/
namespace AlertFlow

namespace RawAlert

/-- An alert that cannot be taken when it is posted: it has no labels, or it ends before it starts.
Without a start of its own it starts when it is posted. -/
def Unacceptable (raw : RawAlert) (now : Instant) : Prop :=
  raw.labels.toList = [] ∨ ∃ t, raw.endsAt = some t ∧ t < raw.startsAt.getD now

/-- What such an alert is refused for. That it has no labels comes first. -/
def fault (raw : RawAlert) : String :=
  if raw.labels.toList = [] then "no labels" else "end time before start time"

end RawAlert

namespace Http

variable {raw : RawAlert} {batch before after : List RawAlert} {now : Instant}

/-! ## Checking a batch -/

theorem defect?_of_unacceptable (h : raw.Unacceptable now) : defect? raw now = some raw.fault := by
  unfold defect? RawAlert.fault
  by_cases hlabels : raw.labels.toList = []
  · rw [if_pos hlabels, if_pos (raw.labels.isEmpty_iff.2 hlabels)]
  · obtain ⟨t, hends, hlt⟩ := h.resolve_left hlabels
    rw [if_neg hlabels, if_neg (mt raw.labels.isEmpty_iff.1 hlabels)]
    simp only [RawAlert.toAlert, hends]
    exact if_pos hlt

theorem defect?_eq_none (h : ¬ raw.Unacceptable now) : defect? raw now = none := by
  have hlabels : raw.labels.toList ≠ [] := fun hnil => h (.inl hnil)
  unfold defect?
  rw [if_neg (mt raw.labels.isEmpty_iff.1 hlabels)]
  cases hends : raw.endsAt with
  | none => simp only [RawAlert.toAlert, hends]
  | some t =>
    simp only [RawAlert.toAlert, hends]
    exact if_neg fun hlt => h (.inr ⟨t, hends, hlt⟩)

/-- The check passes over acceptable alerts at the front of a batch. -/
theorem checkBatch_append (h : ∀ r ∈ before, ¬ r.Unacceptable now) (i : Nat)
    (rest : List RawAlert) :
    checkBatch now i (before ++ rest) =
      (checkBatch now (i + before.length) rest).map (before.map (·.toAlert now) ++ ·) := by
  induction before generalizing i with
  | nil =>
    rw [List.length_nil, Nat.add_zero]
    show checkBatch now i rest = (checkBatch now i rest).map id
    cases checkBatch now i rest <;> rfl
  | cons r before ih =>
    obtain ⟨hr, hbefore⟩ := List.forall_mem_cons.1 h
    rw [List.cons_append, checkBatch, defect?_eq_none hr]
    show (checkBatch now (i + 1) (before ++ rest)).map _ = _
    rw [ih hbefore, List.length_cons, Nat.add_right_comm, ← Nat.add_assoc]
    cases checkBatch now (i + before.length + 1) rest <;> rfl

theorem checkBatch_of_acceptable (h : ∀ r ∈ batch, ¬ r.Unacceptable now) :
    checkBatch now 0 batch = .ok (batch.map (·.toAlert now)) := by
  have hcheck := checkBatch_append h 0 []
  rw [List.append_nil] at hcheck
  rw [hcheck, checkBatch]
  exact congrArg Except.ok (List.append_nil _)

theorem checkBatch_of_first (h : ∀ r ∈ before, ¬ r.Unacceptable now)
    (hraw : raw.Unacceptable now) :
    checkBatch now 0 (before ++ raw :: after) =
      .error (.badRequest ("alert " ++ toString before.length ++ ": " ++ raw.fault)) := by
  rw [checkBatch_append h, Nat.zero_add, checkBatch, defect?_of_unacceptable hraw]
  rfl

/-- A batch that has an alert that cannot be taken has a first one. -/
theorem exists_first_unacceptable (h : ∃ r ∈ batch, r.Unacceptable now) :
    ∃ before raw after, batch = before ++ raw :: after ∧
      (∀ r ∈ before, ¬ r.Unacceptable now) ∧ raw.Unacceptable now := by
  induction batch with
  | nil =>
    obtain ⟨r, hmem, -⟩ := h
    exact absurd hmem List.not_mem_nil
  | cons r batch ih =>
    by_cases hr : r.Unacceptable now
    · exact ⟨[], r, batch, rfl, by simp, hr⟩
    · obtain ⟨r', hmem, hr'⟩ := h
      obtain ⟨before, raw, after, rfl, hbefore, hraw⟩ :=
        ih ⟨r', (List.mem_cons.1 hmem).resolve_left fun heq => hr (heq ▸ hr'), hr'⟩
      exact ⟨r :: before, raw, after, rfl, List.forall_mem_cons.2 ⟨hr, hbefore⟩, hraw⟩

theorem postAlerts_of_acceptable (h : ∀ r ∈ batch, ¬ r.Unacceptable now) (store : AlertStore) :
    postAlerts batch now store =
      (.ok (.record [("status", .string "success")]), store.put (batch.map (·.toAlert now))) := by
  rw [postAlerts, checkBatch_of_acceptable h]

theorem postAlerts_of_first (h : ∀ r ∈ before, ¬ r.Unacceptable now)
    (hraw : raw.Unacceptable now) (store : AlertStore) :
    postAlerts (before ++ raw :: after) now store =
      ((ApiError.badRequest
        ("alert " ++ toString before.length ++ ": " ++ raw.fault)).toResponse, store) := by
  rw [postAlerts, checkBatch_of_first h hraw]

/-! ## Posting -/

theorem status_postAlerts (batch : List RawAlert) (now : Instant) (store : AlertStore) :
    (postAlerts batch now store).1.status = 400 ↔ ∃ raw ∈ batch, raw.Unacceptable now := by
  constructor
  · intro hstatus
    by_contra hnone
    have hgood : ∀ raw ∈ batch, ¬ raw.Unacceptable now :=
      fun raw hmem hraw => hnone ⟨raw, hmem, hraw⟩
    rw [postAlerts_of_acceptable hgood] at hstatus
    simp [Response.ok] at hstatus
  · intro hbad
    obtain ⟨before, raw, after, rfl, hbefore, hraw⟩ := exists_first_unacceptable hbad
    rw [postAlerts_of_first hbefore hraw]
    rfl

/-- **Posting is all or nothing.** Any batch is posted at any time to any store, with any readers
that have read any part of what was put. It is refused exactly if one of its alerts cannot be taken;
the answer then names the first such alert and what it is refused for, and the store and its readers
stay as they are. Otherwise the store is overwritten by the batch, the last alert of a fingerprint
standing, and the whole batch comes behind what each reader has not read: from then on it is
answered as its account with the batch added says. -/
theorem post_all_or_nothing (n : Nat) (events : List StreamEvent) (batch : List RawAlert)
    (now : Instant) :
    let s := (Readership.ofCapacity n).run events
    let posting := postAlerts batch now s.store
    let response := posting.1
    let posted : Readership := { s with store := posting.2 }
    let alerts := batch.map (·.toAlert now)
    (response.status = 400 ↔ ∃ raw ∈ batch, raw.Unacceptable now) ∧
      (∀ before raw after, batch = before ++ raw :: after →
        (∀ r ∈ before, ¬ r.Unacceptable now) → raw.Unacceptable now →
        response = { status := 400
                     body := some (.record [("error", .string
                       ("alert " ++ toString before.length ++ ": " ++ raw.fault))]) } ∧
          posted = s) ∧
      ((∀ raw ∈ batch, ¬ raw.Unacceptable now) →
        response = { status := 200, body := some (.record [("status", .string "success")]) } ∧
          (∀ fp, posted.store.alerts.get? fp =
            (Alert.latest? alerts fp).or (s.store.alerts.get? fp)) ∧
          ∀ i < s.readers.length, ∃ account,
            s.Serves i account (StreamEvent.puts events) ∧
              posted.Serves i { account with unread := account.unread ++ alerts }
                (StreamEvent.puts events ++ alerts) ∧
              ∀ later, posted.answers i later =
                ({ account with unread := account.unread ++ alerts } : Account).answers
                  (max n 1).nextPowerOfTwo i later) := by
  intro s posting response posted alerts
  refine ⟨status_postAlerts batch now s.store, ?_, fun hgood => ?_⟩
  · intro before raw after hbatch hbefore hraw
    have hrefused : posting = ((ApiError.badRequest
        ("alert " ++ toString before.length ++ ": " ++ raw.fault)).toResponse, s.store) := by
      show postAlerts batch now s.store = _
      rw [hbatch]
      exact postAlerts_of_first hbefore hraw s.store
    exact ⟨congrArg Prod.fst hrefused, congrArg (fun p => { s with store := p.2 }) hrefused⟩
  · have htaken : posting = (.ok (.record [("status", .string "success")]), s.store.put alerts) :=
      postAlerts_of_acceptable hgood s.store
    have hposted : posted = s.react (.put alerts) :=
      congrArg (fun p => { s with store := p.2 }) htaken
    rw [hposted]
    exact ⟨congrArg Prod.fst htaken, fun fp => s.store.get?_put alerts fp,
      Readership.serves_put n events alerts⟩

end Http

end AlertFlow
