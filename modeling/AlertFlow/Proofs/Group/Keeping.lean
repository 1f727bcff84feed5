import AlertFlow.Proofs.Group.Bookkeeping

/-!
What a group keeps by itself. As long as no flush was fired after some time, an alert that is still
firing then stays in the group, whichever deliveries end meanwhile; and without an insertion nothing
new comes in. Nor does anything else change: the revision counter stands, and only the group's own
deliveries make it sent to, or take an alert out of it.
-/
namespace AlertFlow.Group

theorem held?_eq_some {g : Group} {fp : Fingerprint} {a : Alert} :
    g.held? fp = some a ↔ ∃ rev, g.holdings.held.get? fp = some ⟨rev, a⟩ := by
  rw [held?, Option.map_eq_some_iff]
  constructor
  · intro h
    obtain ⟨⟨rev, a⟩, h, rfl⟩ := h
    exact ⟨rev, h⟩
  · intro hget
    obtain ⟨rev, h⟩ := hget
    exact ⟨_, h, rfl⟩

theorem held?_insert (g : Group) (now : Instant) (a : Alert) (fp : Fingerprint) :
    (g.insert now a).held? fp = if a.fingerprint = fp then some a else g.held? fp := by
  show ((g.holdings.insert a).held.get? fp).map _ = _
  rw [Holdings.get?_insert]
  split
  · rfl
  · rfl

/-- A group without alerts holds none under any fingerprint. -/
theorem isEmpty_iff {g : Group} : g.isEmpty = true ↔ ∀ fp, g.held? fp = none := by
  rw [isEmpty, Table.isEmpty_iff]
  simp only [held?, Option.map_eq_none_iff]

/-- The alerts of a group are those that it holds under some fingerprint. -/
theorem mem_alerts {g : Group} {a : Alert} : a ∈ g.alerts ↔ ∃ fp, g.held? fp = some a := by
  simp only [alerts, Holdings.alerts, List.mem_map, Table.mem_values, held?_eq_some]
  constructor
  · intro h
    obtain ⟨⟨rev, a⟩, ⟨fp, hget⟩, rfl⟩ := h
    exact ⟨fp, rev, hget⟩
  · intro h
    obtain ⟨fp, rev, hget⟩ := h
    exact ⟨_, ⟨fp, hget⟩, rfl⟩

/-- Whether a held alert is what the snapshots of a group show under its revision. -/
def Faithful (g : Group) : Prop :=
  ∀ f ∈ g.flushes, ∀ s, f.snapshot = some s → ∀ fp e c, (fp, e) ∈ s →
    g.holdings.held.get? fp = some c → c.revision = e.revision → c.alert = e.alert

theorem Faithful.change {e : Event} {g g' : Group} {x : Option Note} {h : List Note}
    (hl : Ledger g.holdings g.flushes g.nextFlush h) (hs : Faithful g) (hc : Change e g g' x) :
    Faithful g' := by
  unfold Faithful
  cases hc with
  | kept holdings flushes =>
    rw [holdings, flushes]
    exact hs
  | inserted a holdings flushes =>
    rw [holdings, flushes]
    intro f hf s hsnap fp e c he hc hr
    rw [Holdings.get?_insert] at hc
    split at hc
    · -- a new revision is in no snapshot
      cases hc
      exact absurd hr (Nat.ne_of_gt (hl.snapshots f hf s hsnap _ he))
    · exact hs f hf s hsnap fp e c he hc hr
  | opened f _ waiting _ holdings flushes =>
    rw [holdings, flushes]
    refine List.forall_mem_append.2 ⟨hs, List.forall_mem_singleton.2 ?_⟩
    simp [waiting]
  | taken f _ _ holdings flushes =>
    rw [holdings, flushes]
    intro f' hf' s hsnap fp e c he hc hr
    obtain ⟨f₀, hf₀, rfl⟩ := List.mem_map.1 hf'
    rw [snapshot_take] at hsnap
    split at hsnap
    · cases hsnap
      cases (Holdings.mem_snapshot.1 he).symm.trans hc
      rfl
    · exact hs f₀ hf₀ s hsnap fp e c he hc hr
  | delivered f _ _ _ holdings flushes =>
    rw [holdings, flushes]
    intro f' hf' s hsnap fp e c he hc hr
    exact hs f' (List.mem_of_mem_filter hf') s hsnap fp e c he (Holdings.get?_of_settle hc) hr
  | dropped _ holdings flushes =>
    rw [holdings, flushes]
    exact fun f hf => hs f (List.mem_of_mem_filter hf)

/-- A group that no flush fired after a time can disturb: what its snapshots show under the revision
of a held alert is that alert. -/
structure Steady (t : Instant) (g : Group) : Prop where
  ledger : ∃ h, Ledger g.holdings g.flushes g.nextFlush h
  fired : ∀ f ∈ g.flushes, f.context.now ≤ t
  same : ∀ f ∈ g.flushes, ∀ s, f.snapshot = some s → ∀ fp e c, (fp, e) ∈ s →
    g.holdings.held.get? fp = some c → c.revision = e.revision → c.alert = e.alert

theorem Steady.new (t : Instant) (labels : LabelSet) (route : Route) (serial : Nat)
    (isCancelled : Bool) : Steady t { labels, route, serial, isCancelled } where
  ledger := ⟨[], .start⟩
  fired := by simp
  same := by simp

section Change

variable {t : Instant} {e : Event} {g g' : Group} {x : Option Note}

theorem Steady.change (hs : Steady t g) (hc : Change e g g' x)
    (hwall : ∀ now, e.wall? = some now → now ≤ t) : Steady t g' := by
  obtain ⟨h, hl⟩ := hs.ledger
  refine ⟨⟨_, hl.change hc⟩, fun f hf => ?_, Faithful.change hl hs.same hc⟩
  cases hc.flushOrigin hf with
  | kept f₀ mem _ context | taken f₀ mem _ context =>
    rw [context]
    exact hs.fired f₀ mem
  | opened _ _ fired => exact hwall _ fired

/-- **An alert that fires at a time is kept** by everything up to that time but an insertion. -/
theorem Steady.keeps (hs : Steady t g) (hc : Change e g g' x)
    (hx : ∀ c, x ≠ some (.inserted c)) {fp : Fingerprint} {a : Alert} (ha : g.held? fp = some a)
    (hfiring : a.isFiringAt t = true) : g'.held? fp = some a := by
  cases hc with
  | kept holdings | opened _ _ _ _ holdings | taken _ _ _ holdings | dropped _ holdings =>
    rwa [held?, holdings]
  | inserted c => exact absurd rfl (hx c)
  | delivered f s mem snapshot holdings =>
    obtain ⟨rev, hheld⟩ := held?_eq_some.1 ha
    refine held?_eq_some.2 ⟨rev, ?_⟩
    rw [holdings, Holdings.get?_settle, hheld, Option.filter_some, if_pos]
    refine decide_eq_true fun e he hrel => ?_
    obtain ⟨rfl, hrev, hres⟩ := hrel
    have hsame : a = e.2.alert := hs.same f mem s snapshot _ _ _ he hheld hrev
    have hlate : a.isResolvedAt t = true :=
      Alert.isResolvedAt_of_le (hs.fired f mem) (hsame ▸ hres)
    simp [Alert.isFiringAt, hlate] at hfiring

/-- Nothing comes into a group but by insertion. -/
theorem get?_of_change (hc : Change e g g' x) (hx : ∀ c, x ≠ some (.inserted c))
    {fp : Fingerprint} {c : HeldAlert} (h : g'.holdings.held.get? fp = some c) :
    g.holdings.held.get? fp = some c := by
  cases hc with
  | kept holdings | opened _ _ _ _ holdings | taken _ _ _ holdings | dropped _ holdings =>
    rwa [holdings] at h
  | inserted c => exact absurd rfl (hx c)
  | delivered f s mem snapshot holdings =>
    rw [holdings] at h
    exact Holdings.get?_of_settle h

theorem held?_of_change (hc : Change e g g' x) (hx : ∀ c, x ≠ some (.inserted c))
    {fp : Fingerprint} {a : Alert} (ha : g'.held? fp = some a) : g.held? fp = some a := by
  obtain ⟨rev, hget⟩ := held?_eq_some.1 ha
  exact held?_eq_some.2 ⟨rev, get?_of_change hc hx hget⟩

theorem isEmpty_of_change (hc : Change e g g' x) (hx : ∀ c, x ≠ some (.inserted c))
    (h : g.isEmpty = true) : g'.isEmpty = true := by
  rw [isEmpty_iff] at h ⊢
  intro fp
  rw [Option.eq_none_iff_forall_ne_some]
  intro a ha
  have hold := held?_of_change hc hx ha
  rw [h fp] at hold
  cases hold

end Change

/-- The alerts of a group differ in their fingerprints. -/
theorem nodup_alerts {g : Group} {h : List Note}
    (hl : Ledger g.holdings g.flushes g.nextFlush h) :
    (g.alerts.map Alert.fingerprint).Nodup := by
  rw [alerts, Holdings.alerts, List.map_map]
  exact g.holdings.held.nodup_map_values _ fun fp e he => (hl.held fp e he).2.1

theorem Steady.nodup_alerts {t : Instant} {g : Group} (hs : Steady t g) :
    (g.alerts.map Alert.fingerprint).Nodup := by
  obtain ⟨h, hl⟩ := hs.ledger
  exact Group.nodup_alerts hl

/-! ## What is left of a group -/

/-- What is left of a group after some notes, none of them of an insertion: the revision counter and
the alerts, but for those that the group's own deliveries have cleared since. What was noted before
tells when the flushes under way took their snapshots. -/
structure Spares (past since : List Note) (g g' : Group) : Prop where
  persists : Persists g g'
  revision : g'.holdings.nextRevision = g.holdings.nextRevision
  sent : g'.holdings.hasSent = true ↔ g.holdings.hasSent = true ∨ ∃ n, .delivered n ∈ since
  held : ∀ fp, g'.holdings.held.get? fp = g.holdings.held.get? fp ∨
    (g'.holdings.held.get? fp = none ∧ ∃ c, g.holdings.held.get? fp = some c ∧
      ∃ n now, .taken n now ∈ past ++ since ∧ .delivered n ∈ since ∧
        c.alert.isResolvedAt now = true)

namespace Spares

variable {past since : List Note} {g g' g'' : Group}

theorem refl (past : List Note) (g : Group) : Spares past [] g g where
  persists := .refl g
  revision := rfl
  sent := by simp
  held := fun fp => .inl rfl

/-- A note other than of a delivery leaves everything as it is. -/
theorem still (hs : Spares past since g g') (hp : Persists g' g'')
    (holdings : g''.holdings = g'.holdings) {x : Option Note} (hx : ∀ n, x ≠ some (.delivered n)) :
    Spares past (since ++ x.toList) g g'' where
  persists := hs.persists.trans hp
  revision := by rw [holdings, hs.revision]
  sent := by
    have hsame : ∀ n, .delivered n ∈ since ++ x.toList ↔ .delivered n ∈ since := by
      intro n
      simp [hx n]
    rw [holdings, hs.sent]
    simp only [hsame]
  held := by
    intro fp
    rw [holdings]
    refine (hs.held fp).imp_right fun h => ?_
    obtain ⟨hnone, c, hc, n, now, ht, hd, hres⟩ := h
    refine ⟨hnone, c, hc, n, now, ?_, List.mem_append_left _ hd, hres⟩
    rw [← List.append_assoc]
    exact List.mem_append_left _ ht

/-- A delivery takes out what its snapshot releases. -/
theorem settle (hl : Ledger g'.holdings g'.flushes g'.nextFlush (past ++ since))
    (hf : Faithful g') (hs : Spares past since g g') (hp : Persists g' g'') {f : Flush}
    {s : Snapshot} (mem : f ∈ g'.flushes) (snapshot : f.snapshot = some s)
    (holdings : g''.holdings = g'.holdings.settle s f.context.now) :
    Spares past (since ++ [.delivered f.number]) g g'' where
  persists := hs.persists.trans hp
  revision := by rw [holdings, Holdings.nextRevision_settle, hs.revision]
  sent := by
    rw [holdings, Holdings.hasSent_settle]
    exact iff_of_true rfl (.inr ⟨f.number, by simp⟩)
  held := by
    have htaken : .taken f.number f.context.now ∈ past ++ (since ++ [.delivered f.number]) := by
      rw [← List.append_assoc]
      refine List.mem_append_left _ ((hl.taken f mem _).2 ⟨?_, rfl⟩)
      rw [snapshot, Option.isSome_some]
    intro fp
    rw [holdings, Holdings.get?_settle]
    rcases hs.held fp with hsame | ⟨hnone, c, hc, n, now, ht, hd, hres⟩
    · cases hc : g'.holdings.held.get? fp with
      | none =>
        rw [hc] at hsame
        exact .inl hsame
      | some c =>
        rw [hc] at hsame
        rw [Option.filter_some]
        by_cases hkeep : ∀ e ∈ s, ¬ Holdings.Releases f.context.now fp c e
        · rw [if_pos (decide_eq_true hkeep)]
          exact .inl hsame
        · rw [if_neg (by simpa using hkeep)]
          push Not at hkeep
          obtain ⟨⟨_, e⟩, he, rfl, hrev, hres⟩ := hkeep
          have hversion : c.alert = e.alert := hf f mem s snapshot _ e c he hc hrev
          exact .inr ⟨rfl, c, hsame.symm, f.number, f.context.now, htaken, by simp,
            hversion ▸ hres⟩
    · rw [hnone]
      refine .inr ⟨rfl, c, hc, n, now, ?_, List.mem_append_left _ hd, hres⟩
      rw [← List.append_assoc]
      exact List.mem_append_left _ ht

/-- **What is left of a group**, event by event. -/
theorem change {e : Event} {x : Option Note}
    (hl : Ledger g'.holdings g'.flushes g'.nextFlush (past ++ since)) (hf : Faithful g')
    (hs : Spares past since g g') (hp : Persists g' g'') (hc : Change e g' g'' x)
    (hx : ∀ a, x ≠ some (.inserted a)) : Spares past (since ++ x.toList) g g'' := by
  cases hc with
  | kept holdings | opened _ _ _ _ holdings | taken _ _ _ holdings | dropped _ holdings =>
    exact hs.still hp holdings (by simp)
  | inserted a => exact absurd rfl (hx a)
  | delivered f s mem snapshot holdings => exact settle hl hf hs hp mem snapshot holdings

end Spares

end AlertFlow.Group
