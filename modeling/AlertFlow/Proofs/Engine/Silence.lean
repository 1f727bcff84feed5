import AlertFlow.Proofs.Engine.Strays

/-!
What a call to stop silences. The groups of the map are cancelled, and so is every group that the
main loop still creates before its run ends; from then on none of them begins a delivery, none takes
the result of one, and none gives up an alert.
-/
namespace AlertFlow.Engine

variable {e : Engine}

theorem Carried.muted {g g' g'' : Group} (h : Carried g' g'') (hm : Group.Muted g g') :
    Group.Muted g g'' := by
  rcases h with rfl | ⟨x, rfl⟩
  · exact hm
  · exact hm.react x

/-- A cancelled group stays silent in every run from then on. -/
theorem muted_later (hn : Numbered e) {g g' : Group} (hg : g ∈ e.allGroups)
    (hc : g.isCancelled = true) (events : List Event) (hg' : g' ∈ (e.run events).allGroups)
    (hserial : g'.serial = g.serial) : Group.Muted g g' :=
  hn.later (fun h hm => h.muted hm) hg (.refl hc) events hg' hserial

/-- A call to stop leaves no run registered until the next one begins. -/
theorem registered_react (h : e.registered = none) {x : Event} (hx : ∀ tick, x ≠ .begin tick) :
    (e.react x).registered = none := by
  have hr := reacted e x
  generalize e.react x = e' at hr
  cases hr with
  | idle | finished => exact h
  | begun tick => exact absurd rfl (hx tick)
  | sorted =>
    rw [sort_eq]
    exact h
  | stepped s =>
    by_cases hs : s = .stop
    · subst hs
      simp only [step, stop, h]
    · exact (registered_of_step hs).1.trans h

theorem registered_run (h : e.registered = none) {events : List Event}
    (hx : ∀ tick, .begin tick ∉ events) : (e.run events).registered = none := by
  refine run_keeps (P := fun e => e.registered = none) ?_ h
  intro e x hmem hnone
  exact registered_react hnone fun tick heq => hx tick (heq ▸ hmem)

/-- A group that is created after a call to stop is silent from its creation on. -/
theorem muted_new (hn : Numbered e) (hr : InReach e) (hnone : e.registered = none)
    {events : List Event} (hx : ∀ tick, .begin tick ∉ events) {g' : Group}
    (hg' : g' ∈ (e.run events).allGroups) (hserial : g'.serial ∉ e.serials) :
    ∃ labels route,
      Group.Muted { labels, route, serial := g'.serial, isCancelled := true } g' := by
  induction events using List.reverseRecOn generalizing g' with
  | nil => exact absurd (List.mem_map_of_mem hg') hserial
  | append_singleton events x ih =>
    have hx : ∀ tick, .begin tick ∉ events := fun tick hmem =>
      hx tick (List.mem_append_left _ hmem)
    rw [run_concat] at hg'
    cases origin_react (hn.run events).keyed x hg' with
    | carried g'' mem carried =>
      have heq := carried.serial_eq
      obtain ⟨labels, route, hm⟩ := ih hx mem (heq ▸ hserial)
      exact ⟨labels, route, heq ▸ carried.muted hm⟩
    | created loop on labels route evs heq =>
      have hcancelled := (hr.run hn events).stopped (registered_run hnone hx) loop on
      have hserial : g'.serial = (e.run events).created := heq ▸ (Group.persists_run _ evs).serial
      refine ⟨labels, route, ?_⟩
      rw [hserial, heq, hcancelled]
      exact Group.muted_run rfl evs

/-- **Nothing is sent or given up after cancellation.** A call to stop cancels the groups of the
map. Every group that is cancelled is silent from then on, whatever was under way and whatever
happens: no delivery begins or counts, no alert is given up, and whether anything was sent stands as
it did. Up to the next run the same holds of every group that the main loop still creates, from its
creation on; and it holds of any group that is cancelled by itself. -/
theorem silent_once_stopped (tree : Route) (settings : EngineSettings)
    (before after : List Event) :
    let e := (Engine.run { tree, settings } before).step .stop
    let e' := e.run after
    (∀ id fp g, e.groups.find? id fp = some g → g.isCancelled = true) ∧
    (∀ g ∈ e.allGroups, g.isCancelled = true → ∀ g' ∈ e'.allGroups, g'.serial = g.serial →
      Group.Muted g g') ∧
    ((∀ tick, .begin tick ∉ after) → ∀ g' ∈ e'.allGroups, g'.serial ∉ e.serials →
      ∃ labels route,
        Group.Muted { labels, route, serial := g'.serial, isCancelled := true } g') ∧
    ∀ (g : Group) (events : List Group.Event), Group.Muted g.cancel (g.cancel.run events) := by
  intro e e'
  have hn : Numbered e := (numbered_run tree settings before).react (.step .stop)
  obtain ⟨hr, hnone⟩ := (inReach_run tree settings before).stop
  refine ⟨hr.stored hnone, ?_, ?_, ?_⟩
  · intro g hg hc g' hg' hserial
    exact muted_later hn hg hc after hg' hserial
  · intro hx g' hg' hserial
    exact muted_new hn hr hnone hx hg' hserial
  · intro g events
    exact Group.muted_run rfl events

/-- A route that groups by the names of alerts. -/
def namedRoute : Route :=
  let route := Group.timedRoute (.ofSecs 30) (.ofSecs 300)
  { route with options := { route.options with groupBy := .ofList ["alertname"] } }

/-- The group of an alert has a delivery under way. -/
def deliveringRun : List Event :=
  [.begin 0, .sort (Group.secondsIn 0) (Group.alertFrom "A" 0) namedRoute,
    .step (.group 0 (.fire (Group.secondsIn 30))), .step (.group 0 (.beginFlush 0))]

/-- The main loop takes up another alert, the delivery succeeds, and the timer of the new group
fires. -/
def lateRun : List Event :=
  [.sort (Group.secondsIn 31) (Group.alertFrom "B" 0) namedRoute,
    .step (.group 0 (.endFlush 0 true)), .step (.group 1 (.fire (Group.secondsIn 61))),
    .step (.group 1 (.beginFlush 0)), .finish]

/-- A call to stop silences the group whose delivery is under way, and the one created after. -/
theorem delivery_under_way_silenced :
    let e := (Engine.run { tree := namedRoute } deliveringRun).step .stop
    let e' := e.run lateRun
    (∃ g ∈ e.allGroups, g.isDelivering 0 = true ∧
      ∀ g' ∈ e'.allGroups, g'.serial = g.serial → Group.Muted g g') ∧
    (∃ g' ∈ e'.allGroups, g'.serial = 1) ∧
    ∀ g' ∈ e'.allGroups, g'.serial = 1 → ∃ labels route,
      Group.Muted { labels, route, serial := g'.serial, isCancelled := true } g' := by
  intro e e'
  obtain ⟨-, hold, hnew, -⟩ := silent_once_stopped namedRoute {} deliveringRun lateRun
  have hdelivering : ∃ g ∈ e.allGroups, g.isDelivering 0 = true ∧ g.isCancelled = true := by
    decide +kernel
  have hserials : 1 ∉ e.serials := by decide +kernel
  refine ⟨?_, by decide +kernel, ?_⟩
  · obtain ⟨g, hg, hd, hc⟩ := hdelivering
    exact ⟨g, hg, hd, hold g hg hc⟩
  · intro g' hg' hserial
    exact hnew (by simp [lateRun]) g' hg' (hserial ▸ hserials)

end AlertFlow.Engine
