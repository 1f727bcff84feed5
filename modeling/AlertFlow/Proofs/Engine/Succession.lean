import AlertFlow.Proofs.Engine.Notification
import AlertFlow.Proofs.Group.Course

/-!
Groups that come new to their places. An alert that finds no group at its place gets a new one, with
a number that no group had before it; the group has sent nothing, and knows nothing of the timers of
other groups. Its timer fires once its own group wait has passed, unless an alert of its own
escalates before.
-/
namespace AlertFlow

namespace Group

/-! ## Timers that wait -/

/-- The timer of a group waits for a tick, unless it has ended. -/
structure Patient (due : Nat) (g : Group) : Prop where
  asleep : g.isWoken = false
  waits : g.timer = .armed due ∨ g.timer = .ended

namespace Patient

variable {due : Nat} {g : Group}

theorem congr (hp : Patient due g) {g' : Group} (asleep : g'.isWoken = g.isWoken)
    (timer : g'.timer = g.timer) : Patient due g' :=
  ⟨asleep.trans hp.asleep, timer ▸ hp.waits⟩

theorem fire (hp : Patient due g) (m : Moment) :
    Patient due (g.fire m) ∨ g.nextFlush < (g.fire m).nextFlush := by
  rcases hp.waits with armed | ended
  · by_cases hle : due ≤ m.tick
    · cases hfits : g.interval.exceedsClock with
      | false =>
        rw [fire_of_le armed hle hfits]
        exact .inr (Nat.lt_succ_self _)
      | true =>
        left
        simp only [Group.fire, armed, hle, hfits, if_true]
        exact ⟨rfl, .inr rfl⟩
    · rw [fire_of_lt armed (Nat.not_le.1 hle)]
      exact .inl hp
  · left
    simp only [Group.fire, ended]
    exact hp

/-- A timer that waits goes on waiting until it fires, unless an insertion wakes it. -/
theorem react (hp : Patient due g) {e : Event}
    (he : ∀ now a, e = .insert now a → g.escalates now a = false) :
    Patient due (g.react e) ∨ g.nextFlush < (g.react e).nextFlush := by
  rcases e with ⟨now, a⟩ | ⟨tick, minInterval⟩ | _ | _ | (_ | m | number | ⟨number, delivered⟩ | _)
  · refine .inl (hp.congr ?_ rfl)
    simp [Group.react, Group.insert, he now a rfl]
  · left
    rcases hp.waits with h | h <;> (simp only [Group.react, Group.start, h]; exact hp)
  · exact .inr (Nat.lt_succ_self _)
  · exact .inl (hp.congr rfl rfl)
  · left
    rw [Group.react, Group.step, wake_of_not_woken hp.asleep]
    exact hp
  · exact hp.fire m
  · obtain ⟨fs, hfs⟩ := beginFlush_eq g number
    rw [Group.react, Group.step, hfs]
    exact .inl (hp.congr rfl rfl)
  · obtain ⟨fs, b, hfs⟩ := endFlush_eq g number delivered
    rw [Group.react, Group.step, hfs]
    exact .inl (hp.congr rfl rfl)
  · left
    simp only [Group.react, Group.step, endTimer]
    split
    · exact ⟨hp.asleep, .inr rfl⟩
    · exact hp

/-- A timer that waits for a tick does not fire before it. -/
theorem le_tick (hp : Patient due g) {m : Moment} (hfires : g.nextFlush < (g.fire m).nextFlush) :
    due ≤ m.tick := by
  by_contra hlt
  have hsame : g.fire m = g := by
    rcases hp.waits with armed | ended
    · exact fire_of_lt armed (Nat.not_le.1 hlt)
    · simp only [Group.fire, ended]
  rw [hsame] at hfires
  exact Nat.lt_irrefl _ hfires

end Patient

/-- Whether a group is as it was created for an alert: it holds this one alone, has sent nothing and
set out on no flush, and its timer waits until the group wait has passed, unless the alert has woken
it. -/
structure IsNew (m : Moment) (a : Alert) (g : Group) : Prop where
  unsent : g.holdings.hasSent = false
  holdings : g.holdings = Holdings.insert {} a
  flushes : g.flushes = []
  nextFlush : g.nextFlush = 0
  timer : g.timer = if g.route.options.groupWait.exceedsClock then .ended
    else .armed (m.tick + g.route.options.groupWait.ticks)
  woken : g.isWoken = a.hasWaited g.route.options.groupWait m.wall

end Group

namespace Engine

variable {e : Engine}

/-- The group that the main loop creates for an alert, once it has inserted it, is new. -/
theorem isNew_newGroup (e : Engine) (m : Moment) (c : Bool) (a : Alert) (r : Route) :
    ((e.newGroup m.tick c r (r.grouping a.labels)).insert m.wall a).IsNew m a where
  unsent := by simp [Group.insert]
  holdings := by simp [Group.insert]
  flushes := by simp [Group.insert]
  nextFlush := by simp [newGroup, Group.start, Group.insert]
  timer := by simp [newGroup, Group.start, Group.insert]
  woken := by simp [newGroup, Group.start, Group.insert, Group.escalates]

/-! ## Wake-ups of one group -/

/-- Whether an event inserts an alert into the group of a number and wakes its timer. -/
def urges (e : Engine) (serial : Nat) : Event → Bool
  | .sort m a route =>
    match e.mainLoop with
    | some ⟨_, isCancelled, _, none⟩ =>
      let g := e.taker m isCancelled a.labels route
      g.serial == serial && g.escalates m.wall a
    | _ => false
  | _ => false

/-- Whether one of some events wakes the group of a number. -/
def Urged (e : Engine) (serial : Nat) (events : List Event) : Prop :=
  ∃ before x after, events = before ++ x :: after ∧ (e.run before).urges serial x = true

theorem Urged.append {serial : Nat} {xs : List Event} (h : Urged e serial xs) (ys : List Event) :
    Urged e serial (xs ++ ys) := by
  obtain ⟨before, x, after, rfl, hx⟩ := h
  exact ⟨before, x, after ++ ys, by simp, hx⟩

theorem urges_sort {loop : MainLoop} (on : e.mainLoop = some loop) (free : loop.sweep = none)
    (serial : Nat) (m : Moment) (a : Alert) (r : Route) :
    e.urges serial (.sort m a r) =
      ((e.taker m loop.isCancelled a.labels r).serial == serial &&
        (e.taker m loop.isCancelled a.labels r).escalates m.wall a) := by
  obtain ⟨run, c, nextSweep, sweep⟩ := loop
  cases free
  simp only [urges, on]

/-- What an event makes of a group that was there: the group stays as it is or reacts, and it wakes
its timer in an insertion exactly if the event does. -/
theorem reacts_of_mem (hn : Numbered e) {x : Event} {g' : Group}
    (hg' : g' ∈ (e.react x).allGroups) (hold : g'.serial < e.created) :
    ∃ g ∈ e.allGroups, g'.serial = g.serial ∧ (g' = g ∨ ∃ ev, g' = g.react ev ∧
      ∀ now a, ev = .insert now a → e.urges g.serial x = g.escalates now a) := by
  have hx := reacted e x
  generalize e.react x = e' at hx hg'
  cases hx with
  | idle => exact ⟨g', hg', rfl, .inl rfl⟩
  | begun => exact ⟨g', mem_allGroups_begin hg', rfl, .inl rfl⟩
  | finished => exact ⟨g', mem_allGroups_endLoop hg', rfl, .inl rfl⟩
  | sorted loop on free m a r =>
    rcases mem_allGroups_sort hn.keyed hg' with rfl | hmem
    · have hurges := urges_sort on free (e.taker m loop.isCancelled a.labels r).serial m a r
      rw [beq_self_eq_true, Bool.true_and] at hurges
      have htaker : e.taker m loop.isCancelled a.labels r ∈ e.allGroups := by
        unfold taker at hold ⊢
        cases hf : e.groups.find? r.id (r.grouping a.labels).fingerprint with
        | some g => exact mem_allGroups.2 (.inl ⟨_, _, hf⟩)
        | none =>
          -- a new group has a number that none had before
          have hserial := serial_newGroup e m.tick loop.isCancelled r (r.grouping a.labels)
          rw [hf] at hold
          exact absurd (hserial ▸ hold) (Nat.lt_irrefl _)
      refine ⟨_, htaker, rfl, .inr ⟨.insert m.wall a, rfl, ?_⟩⟩
      intro now b heq
      cases heq
      exact hurges
    · exact ⟨g', hmem, rfl, .inl rfl⟩
  | stepped s =>
    obtain ⟨g, hg, hm⟩ := moved_step hg'
    refine ⟨g, hg, hm.carried.serial_eq, ?_⟩
    rcases hm.noted hn hg with ⟨rfl, -⟩ | ⟨ev, rfl, -, hev⟩
    · exact .inl rfl
    · refine .inr ⟨ev, rfl, fun now a heq => ?_⟩
      subst heq
      exact absurd rfl (hev a)

/-! ## New groups -/

section New

variable (hn : Numbered e) {loop : MainLoop} (on : e.mainLoop = some loop)
  (free : loop.sweep = none) {m : Moment} {a : Alert} {r : Route}
  (hnone : e.groups.find? r.id (r.grouping a.labels).fingerprint = none)
include hn on free hnone

/-- **An alert that finds no group at its place gets a new one**, with the next number. -/
theorem find?_sort_new : ∃ g,
    (e.react (.sort m a r)).groups.find? r.id (r.grouping a.labels).fingerprint = some g ∧
      g.serial = e.created ∧ g.labels = r.grouping a.labels ∧ g.route = r ∧ g.IsNew m a := by
  have hreact : e.react (.sort m a r) = sort m loop.isCancelled a e r := by
    obtain ⟨run, c, nextSweep, sweep⟩ := loop
    cases free
    simp only [react, on]
  rw [hreact, find?_sort hn.keyed, if_pos ⟨rfl, rfl⟩, taker, hnone, Option.getD_none]
  refine ⟨_, rfl, ?_, ?_, ?_, isNew_newGroup e m loop.isCancelled a r⟩
  · exact serial_newGroup e m.tick loop.isCancelled r (r.grouping a.labels)
  · exact labels_newGroup (c := loop.isCancelled) e m.tick r (r.grouping a.labels)
  · exact route_newGroup (c := loop.isCancelled) e m.tick r (r.grouping a.labels)

/-- The timer of a new group waits for its own group wait to pass until it fires, unless it was
woken by an insertion of its own. -/
theorem patient_run (events : List Event) : Urged e e.created (.sort m a r :: events) ∨
    ∀ g ∈ ((e.react (.sort m a r)).run events).allGroups, g.serial = e.created →
      g.Patient (m.tick + r.options.groupWait.ticks) ∨ 0 < g.nextFlush := by
  have hn' := hn.react (.sort m a r)
  obtain ⟨g₀, hfound, hserial₀, -, hroute, hnew⟩ := find?_sort_new hn on free hnone
  have hmem₀ : g₀ ∈ (e.react (.sort m a r)).allGroups := mem_allGroups.2 (.inl ⟨_, _, hfound⟩)
  induction events using List.reverseRecOn with
  | nil =>
    by_cases hwaited : a.hasWaited r.options.groupWait m.wall = true
    · -- the alert for which the group is created wakes it
      refine .inl ⟨[], _, [], rfl, ?_⟩
      rw [run, List.foldl_nil, urges_sort on free, taker, hnone, Option.getD_none,
        serial_newGroup, beq_self_eq_true, Bool.true_and]
      simp [Group.escalates, hwaited]
    · refine .inr fun g hg hserial => .inl ?_
      obtain rfl := hn'.eq_of_serial hg hmem₀ (hserial.trans hserial₀.symm)
      refine ⟨hnew.woken.trans ?_, ?_⟩
      · rw [hroute]
        simpa using hwaited
      · rw [hnew.timer, hroute]
        split
        · exact .inr rfl
        · exact .inl rfl
  | append_singleton events x ih =>
    rw [← List.cons_append]
    rcases ih with hurged | hpatient
    · exact .inl (hurged.append [x])
    · rw [run_concat]
      by_cases hurges : ((e.react (.sort m a r)).run events).urges e.created x = true
      · exact .inl ⟨_, x, [], rfl, hurges⟩
      · right
        intro g' hg' hserial'
        have hold : g'.serial < ((e.react (.sort m a r)).run events).created := by
          have hle := created_le_run hn'.keyed events
          have hlt := hn'.bound _ (List.mem_map_of_mem hmem₀)
          omega
        obtain ⟨g, hg, hsame, hreacts⟩ := reacts_of_mem (hn'.run events) hg' hold
        have hserial : g.serial = e.created := hsame.symm.trans hserial'
        rcases hreacts with rfl | ⟨ev, rfl, hev⟩
        · exact hpatient g' hg hserial
        · rcases hpatient g hg hserial with hp | hpos
          · refine (hp.react fun now b heq => ?_).imp_right (Nat.lt_of_le_of_lt (Nat.zero_le _))
            rw [← hev now b heq, hserial]
            exact Bool.eq_false_iff.2 hurges
          · exact .inr (Nat.lt_of_lt_of_le hpos (Group.nextFlush_le_react g ev))

/-- **The first firing of a new group** comes once its own group wait has passed, unless it was
woken by an insertion of its own. -/
theorem le_first_firing (events : List Event) {y : Event} {now : Instant}
    (h : ((e.react (.sort m a r)).run events).firing? y = some ⟨e.created, 0, now⟩) :
    ∃ m', y = .step (.group e.created (.fire m')) ∧
      (m.tick + r.options.groupWait.ticks ≤ m'.tick ∨
        Urged e e.created (.sort m a r :: events)) := by
  obtain ⟨g, hg, m', rfl, hy, hfires⟩ := firing?_eq_some ((hn.react (.sort m a r)).run events) h
  obtain ⟨hserial, hfirst, -⟩ := Firing.mk.inj hy
  refine ⟨m', by rw [hserial], ?_⟩
  rcases patient_run hn on free hnone events with hurged | hpatient
  · exact .inr hurged
  · rcases hpatient g hg hserial.symm with hp | hpos
    · exact .inl (hp.le_tick hfires)
    · omega

end New

end Engine

end AlertFlow
