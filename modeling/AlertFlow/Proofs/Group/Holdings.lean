import AlertFlow.Group.Holdings

/-!
What inserting and settling do to the alert held under one fingerprint.
-/
namespace AlertFlow.Holdings

theorem mem_snapshot {h : Holdings} {fp : Fingerprint} {e : HeldAlert} :
    (fp, e) ∈ h.snapshot ↔ h.held.get? fp = some e :=
  Table.mem_toList_iff h.held fp e

theorem get?_insert (h : Holdings) (a : Alert) (fp : Fingerprint) :
    (h.insert a).held.get? fp =
      if a.fingerprint = fp then some ⟨h.nextRevision, a⟩ else h.held.get? fp :=
  Table.get?_insert h.held a.fingerprint fp _

@[simp] theorem nextRevision_insert (h : Holdings) (a : Alert) :
    (h.insert a).nextRevision = h.nextRevision + 1 := rfl

@[simp] theorem hasSent_insert (h : Holdings) (a : Alert) :
    (h.insert a).hasSent = h.hasSent := rfl

@[simp] theorem nextRevision_settle (h : Holdings) (s : Snapshot) (now : Instant) :
    (h.settle s now).nextRevision = h.nextRevision := rfl

@[simp] theorem hasSent_settle (h : Holdings) (s : Snapshot) (now : Instant) :
    (h.settle s now).hasSent = true := rfl

/-- Whether an entry of a snapshot shows what is held under a fingerprint, resolved at a time. -/
def Releases (now : Instant) (fp : Fingerprint) (current : HeldAlert)
    (e : Fingerprint × HeldAlert) : Prop :=
  e.1 = fp ∧ current.revision = e.2.revision ∧ e.2.alert.isResolvedAt now = true

instance (now : Instant) (fp : Fingerprint) (current : HeldAlert) :
    DecidablePred (Releases now fp current) :=
  fun _ => inferInstanceAs (Decidable (_ ∧ _))

theorem get?_release (now : Instant) (held : Table Fingerprint HeldAlert)
    (e : Fingerprint × HeldAlert) (fp : Fingerprint) :
    (release now held e).get? fp =
      (held.get? fp).filter fun c => ¬ Releases now fp c e := by
  by_cases hk : e.1 = fp
  · subst hk
    cases hc : held.get? e.1 with
    | none => simp [release, hc]
    | some c =>
      rw [Option.filter_some]
      by_cases hr : c.revision = e.2.revision ∧ e.2.alert.isResolvedAt now = true
      · simp [release, hc, hr, Releases, Table.get?_erase]
      · simp [release, hc, hr, Releases]
  · have hkeep : ∀ c, ¬ Releases now fp c e := fun c h => hk h.1
    have hfilter : (held.get? fp).filter (fun c => ¬ Releases now fp c e) = held.get? fp := by
      cases held.get? fp with
      | none => rfl
      | some c => rw [Option.filter_some, if_pos (decide_eq_true (hkeep c))]
    rw [hfilter]
    unfold release
    split
    · split
      · rw [Table.get?_erase, if_neg hk]
      · rfl
    · rfl

theorem get?_foldl_release (now : Instant) (s : Snapshot) (held : Table Fingerprint HeldAlert)
    (fp : Fingerprint) :
    (s.foldl (release now) held).get? fp =
      (held.get? fp).filter fun c => ∀ e ∈ s, ¬ Releases now fp c e := by
  induction s generalizing held with
  | nil =>
    cases h : held.get? fp with
    | none => simp [h]
    | some c => rw [Option.filter_some, if_pos (by simp), List.foldl_nil, h]
  | cons e s ih =>
    rw [List.foldl_cons, ih, get?_release, Option.filter_filter]
    congr 1
    funext c
    rw [← Bool.decide_and, decide_eq_decide, List.forall_mem_cons]

/-- **Settling, seen at one fingerprint**: the alert held stays unless the snapshot releases it. -/
theorem get?_settle (h : Holdings) (s : Snapshot) (now : Instant) (fp : Fingerprint) :
    (h.settle s now).held.get? fp =
      (h.held.get? fp).filter fun c => ∀ e ∈ s, ¬ Releases now fp c e :=
  get?_foldl_release now s h.held fp

/-- Settling takes nothing up. -/
theorem get?_of_settle {h : Holdings} {s : Snapshot} {now : Instant} {fp : Fingerprint}
    {c : HeldAlert} (hc : (h.settle s now).held.get? fp = some c) : h.held.get? fp = some c := by
  rw [get?_settle] at hc
  exact (Option.filter_eq_some_iff.1 hc).1

end AlertFlow.Holdings
