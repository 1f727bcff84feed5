import AlertFlow.Proofs.Group.Keeping

/-!
What a group has the notifier called with. A flush is opened in the context of its group and, when
it gets its snapshot, leads to one call with the alerts that the group holds then: the versions
inserted last that have not been cleared.
-/
namespace AlertFlow

/-- A call of the notifier for a flush of a group. -/
structure NotifyCall where
  /-- The number of the group. -/
  serial : Nat
  /-- The number of the flush. -/
  flush : Nat
  context : NotifyContext
  alerts : List Alert

/-- The flush that a call is made for. -/
def NotifyCall.key (c : NotifyCall) : Nat × Nat := (c.serial, c.flush)

namespace Group

/-! ## Lives -/

/-- Whether a group has lived through a run with a history since it was new. -/
def Lived (g : Group) (h : List Note) : Prop :=
  ∃ (labels : LabelSet) (route : Route) (serial : Nat) (isCancelled : Bool) (events : List Event),
    g = Group.run { labels, route, serial, isCancelled } events ∧
      h = Group.history { labels, route, serial, isCancelled } events

namespace Lived

variable {g : Group} {h : List Note}

theorem new (labels : LabelSet) (route : Route) (serial : Nat) (isCancelled : Bool) :
    Lived { labels, route, serial, isCancelled } [] :=
  ⟨labels, route, serial, isCancelled, [], rfl, rfl⟩

theorem react (hg : Lived g h) (e : Event) : Lived (g.react e) (h ++ (g.note? e).toList) := by
  obtain ⟨labels, route, serial, isCancelled, events, rfl, rfl⟩ := hg
  refine ⟨labels, route, serial, isCancelled, events ++ [e], ?_, ?_⟩
  · rw [run_append]
  · rw [history_append]

theorem ledger (hg : Lived g h) : Ledger g.holdings g.flushes g.nextFlush h := by
  obtain ⟨labels, route, serial, isCancelled, events, rfl, rfl⟩ := hg
  exact ledger_run Ledger.start events

theorem faithful (hg : Lived g h) : Faithful g := by
  obtain ⟨labels, route, serial, isCancelled, events, rfl, -⟩ := hg
  induction events using List.reverseRecOn with
  | nil => simp [Faithful, run]
  | append_singleton events e ih =>
    rw [run_append]
    exact Faithful.change (ledger_run Ledger.start events) ih (change_react _ e)

end Lived

/-! ## Calls -/

variable {g g' : Group} {h : List Note}

/-- The calls of the notifier that are under way for a group. -/
def calls (g : Group) : List NotifyCall :=
  g.flushes.filterMap fun f =>
    f.snapshot.map fun s => ⟨g.serial, f.number, f.context, s.map (·.2.alert)⟩

theorem mem_calls {c : NotifyCall} : c ∈ g.calls ↔ ∃ f ∈ g.flushes, ∃ s, f.snapshot = some s ∧
    c = ⟨g.serial, f.number, f.context, s.map (·.2.alert)⟩ := by
  simp only [calls, List.mem_filterMap, Option.map_eq_some_iff, eq_comm (a := c)]

/-- A group has at most one call under way for each of its flushes. -/
theorem sublist_calls (g : Group) : (g.calls.map (·.flush)).Sublist (g.flushes.map (·.number)) := by
  rw [calls]
  induction g.flushes with
  | nil => exact .slnil
  | cons f fs ih =>
    cases hs : f.snapshot with
    | none => simpa [hs] using ih.cons f.number
    | some s => simpa [hs] using ih.cons_cons f.number

/-! ## Contexts -/

/-- Whether the flushes of a group have its own contexts. -/
def Addressed (g : Group) : Prop := ∀ f ∈ g.flushes, f.context = g.contextAt f.context.now

theorem contextAt_react (g : Group) (e : Event) (now : Instant) :
    (g.react e).contextAt now = g.contextAt now := by
  simp [contextAt, key, fingerprint]

theorem flushes_fire (g : Group) (m : Moment) : (g.fire m).flushes = g.flushes ∨
    ∃ deadline, (g.fire m).flushes = (g.openFlush m.wall deadline).flushes := by
  unfold fire
  split
  · split
    · split
      · exact .inl rfl
      · exact .inr ⟨_, rfl⟩
    · exact .inl rfl
  · exact .inl rfl

/-- A flush that was opened has the context of its group. -/
theorem addressed_opened {now : Instant} {deadline : Nat} (ha : g.Addressed) {f : Flush}
    (hf : f ∈ (g.openFlush now deadline).flushes) : f.context = g.contextAt f.context.now := by
  rcases List.mem_append.1 hf with hf | hf
  · exact ha f hf
  · rw [List.mem_singleton.1 hf]
    rfl

/-- An event without a wall time opens no flush, and leaves the contexts of the others. -/
theorem addressed_change {e : Event} {x : Option Note} (ha : g.Addressed) (hc : Change e g g' x)
    (hwall : e.wall? = none) {f : Flush} (hf : f ∈ g'.flushes) :
    f.context = g.contextAt f.context.now := by
  cases hc.flushOrigin hf with
  | kept f₀ mem _ context | taken f₀ mem _ context =>
    rw [context]
    exact ha f₀ mem
  | opened _ _ fired =>
    rw [hwall] at fired
    cases fired

theorem Addressed.react (ha : g.Addressed) (e : Event) : (g.react e).Addressed := by
  intro f hf
  rw [contextAt_react]
  have hc := change_react g e
  rcases e with _ | _ | ⟨now, deadline⟩ | _ | (_ | m | _ | _ | _)
  case insert => exact ha f hf
  case openFlush => exact addressed_opened ha hf
  case step.fire =>
    rcases flushes_fire g m with hsame | ⟨deadline, hopened⟩
    · exact ha f (hsame ▸ hf)
    · exact addressed_opened ha (hopened ▸ hf)
  all_goals exact addressed_change ha hc rfl hf

theorem Lived.addressed (hg : Lived g h) : g.Addressed := by
  obtain ⟨labels, route, serial, isCancelled, events, rfl, -⟩ := hg
  induction events using List.reverseRecOn with
  | nil => simp [Addressed, run]
  | append_singleton events e ih =>
    rw [run_append]
    exact ih.react e

/-! ## Batches -/

theorem alerts_eq (g : Group) : g.alerts = g.holdings.snapshot.map (·.2.alert) := by
  simp [alerts, Holdings.alerts, Holdings.snapshot, Table.values, Table.toList]

/-- A flush takes its snapshot from a group that has alerts and has not been cancelled. -/
theorem note?_taken {e : Event} {n : Nat} {now : Instant} (hx : g.note? e = some (.taken n now)) :
    g.alerts ≠ [] ∧ g.isCancelled = false := by
  rcases e with _ | _ | _ | _ | (_ | _ | number | ⟨number, _ | _⟩ | _)
  case step.beginFlush =>
    simp only [note?] at hx
    split at hx
    · split at hx
      · cases hx
      · next hnot =>
        rw [alerts_eq, ne_eq, List.map_eq_nil_iff]
        simpa using hnot
    · cases hx
  case step.endFlush.true =>
    simp only [note?] at hx
    split at hx
    · split at hx <;> cases hx
    · cases hx
  all_goals cases hx

/-- A call that an event begins is made for a flush that had no snapshot, with the alerts that the
group holds. -/
theorem mem_calls_react {e : Event} {c : NotifyCall} (h : c ∈ (g.react e).calls) :
    c.key ∈ g.calls.map NotifyCall.key ∨
      ∃ f ∈ g.flushes, f.snapshot = none ∧ c = ⟨g.serial, f.number, f.context, g.alerts⟩ ∧
        g.alerts ≠ [] ∧ g.isCancelled = false := by
  obtain ⟨f, hf, s, hs, rfl⟩ := mem_calls.1 h
  rw [serial_react]
  -- a flush of the same number that has a snapshot already
  have old : ∀ f₀ ∈ g.flushes, f.number = f₀.number → ∀ s₀, f₀.snapshot = some s₀ →
      NotifyCall.key ⟨g.serial, f.number, f.context, s.map (·.2.alert)⟩ ∈
        g.calls.map NotifyCall.key := by
    intro f₀ hf₀ hnumber s₀ hs₀
    exact List.mem_map.2
      ⟨_, mem_calls.2 ⟨f₀, hf₀, s₀, hs₀, rfl⟩, by simp [NotifyCall.key, hnumber]⟩
  cases (change_react g e).flushOrigin hf with
  | kept f₀ mem number _ snapshot => exact .inl (old f₀ mem number s (snapshot ▸ hs))
  | taken f₀ mem number context snapshot now noted =>
    cases hs₀ : f₀.snapshot with
    | some s₀ => exact .inl (old f₀ mem number s₀ hs₀)
    | none =>
      rw [snapshot] at hs
      cases hs
      refine .inr ⟨f₀, mem, hs₀, ?_, note?_taken noted⟩
      rw [alerts_eq, number, context]
  | opened _ snapshot =>
    rw [snapshot] at hs
    cases hs

theorem Ledger.flush?_of_mem (hl : Ledger g.holdings g.flushes g.nextFlush h) {f : Flush}
    (hf : f ∈ g.flushes) : g.flush? f.number = some f := by
  obtain ⟨f', hf'⟩ : ∃ f', g.flush? f.number = some f' := by
    rw [← Option.isSome_iff_exists, flush?, List.find?_isSome]
    exact ⟨f, hf, by simp⟩
  obtain ⟨hmem, hnumber⟩ := flush?_eq_some hf'
  rw [hf', hl.eq_of_number hmem hf hnumber]

/-- A flush that begins at a group with alerts leads to a call, unless the group is cancelled. -/
theorem mem_calls_beginFlush (hl : Ledger g.holdings g.flushes g.nextFlush h) {f : Flush}
    (hf : f ∈ g.flushes) (waiting : f.snapshot = none) (full : g.alerts ≠ [])
    (live : g.isCancelled = false) :
    ⟨g.serial, f.number, f.context, g.alerts⟩ ∈ (g.beginFlush f.number).calls := by
  have hfound := hl.flush?_of_mem hf
  obtain ⟨number, context, deadline, snapshot⟩ := f
  cases waiting
  have hempty : g.holdings.snapshot.isEmpty = false := by
    rw [alerts_eq, ne_eq, List.map_eq_nil_iff] at full
    simpa using full
  have htaken : g.beginFlush number =
      { g with flushes := g.flushes.map (·.take number g.holdings.snapshot) } := by
    simp only [beginFlush, hfound, hempty, live, Bool.or_self, Bool.false_eq_true, if_false]
  rw [htaken, mem_calls]
  refine ⟨_, List.mem_map_of_mem hf, g.holdings.snapshot, ?_, ?_⟩
  · rw [snapshot_take, if_pos rfl]
  · rw [number_take, context_take, alerts_eq]

/-! ## Versions -/

/-- What was inserted under a fingerprint has a last version. -/
theorem last_version {a : Alert} (ha : .inserted a ∈ h) :
    ∃ before b after, h = before ++ .inserted b :: after ∧ b.fingerprint = a.fingerprint ∧
      ∀ c, .inserted c ∈ after → c.fingerprint ≠ a.fingerprint := by
  induction h using List.reverseRecOn with
  | nil => cases ha
  | append_singleton h x ih =>
    by_cases hx : ∃ b, x = .inserted b ∧ b.fingerprint = a.fingerprint
    · obtain ⟨b, rfl, hb⟩ := hx
      exact ⟨h, b, [], rfl, hb, by simp⟩
    · have hold : .inserted a ∈ h := by
        rcases List.mem_append.1 ha with ha | ha
        · exact ha
        · exact absurd ⟨a, (List.mem_singleton.1 ha).symm, rfl⟩ hx
      obtain ⟨before, b, after, rfl, hb, hlast⟩ := ih hold
      refine ⟨before, b, after ++ [x], by simp, hb, fun c hc => ?_⟩
      rcases List.mem_append.1 hc with hc | hc
      · exact hlast c hc
      · exact fun hsame => hx ⟨c, (List.mem_singleton.1 hc).symm, hsame⟩

/-- The versions that a group has: those inserted last under their fingerprints and not cleared
since. -/
theorem Lived.mem_alerts_iff (hg : Lived g h) {a : Alert} :
    a ∈ g.alerts ↔ ∃ before after, h = before ++ .inserted a :: after ∧
      (∀ b, .inserted b ∈ after → b.fingerprint ≠ a.fingerprint) ∧ ¬ Cleared a after := by
  have hl := hg.ledger
  have hheld : ∀ before b after, h = before ++ .inserted b :: after →
      (∀ c, .inserted c ∈ after → c.fingerprint ≠ b.fingerprint) →
      g.held? b.fingerprint = if Cleared b after then none else some b := by
    obtain ⟨labels, route, serial, isCancelled, events, rfl, rfl⟩ := hg
    intro before b after hh hlast
    obtain ⟨rev, ht⟩ := traced_run Ledger.start events hh hlast
    rw [held?, ht.held]
    split <;> rfl
  rw [mem_alerts]
  constructor
  · intro hmem
    obtain ⟨fp, hfp⟩ := hmem
    obtain ⟨rev, hget⟩ := held?_eq_some.1 hfp
    obtain ⟨-, rfl, hins⟩ := hl.held fp _ hget
    obtain ⟨before, b, after, hh, hsame, hlast⟩ := last_version hins
    rw [← hsame] at hlast hfp
    rw [hheld before b after hh hlast] at hfp
    split at hfp
    · cases hfp
    · next hnot =>
      cases hfp
      exact ⟨before, after, hh, hlast, hnot⟩
  · intro hmem
    obtain ⟨before, after, hh, hlast, hnot⟩ := hmem
    refine ⟨a.fingerprint, ?_⟩
    rw [hheld before a after hh hlast, if_neg hnot]

/-! ## Flushes that are past -/

theorem nextFlush_le_react (g : Group) (e : Event) : g.nextFlush ≤ (g.react e).nextFlush := by
  have hc := change_react g e
  generalize g.note? e = x at hc
  cases hc with
  | opened _ _ _ _ _ _ next => omega
  | kept _ _ next | inserted _ _ _ next | taken _ _ _ _ _ next | delivered _ _ _ _ _ _ next
  | dropped _ _ _ next => exact Nat.le_of_eq next.symm

/-- Whether a group has had a flush of a number and the flush has its snapshot, or has ended. -/
def Past (n : Nat) (g : Group) : Prop :=
  n < g.nextFlush ∧ ∀ f ∈ g.flushes, f.number = n → f.snapshot.isSome = true

theorem Past.react {n : Nat} (hp : Past n g) (e : Event) : Past n (g.react e) := by
  refine ⟨Nat.lt_of_lt_of_le hp.1 (nextFlush_le_react g e), fun f hf hn => ?_⟩
  cases (change_react g e).flushOrigin hf with
  | kept f₀ mem number _ snapshot =>
    rw [snapshot]
    exact hp.2 f₀ mem (number ▸ hn)
  | taken _ _ _ _ snapshot =>
    rw [snapshot]
    rfl
  | opened number =>
    have hlt := hp.1
    omega

end Group

end AlertFlow
