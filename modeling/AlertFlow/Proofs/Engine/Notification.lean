import AlertFlow.Proofs.Engine.History
import AlertFlow.Proofs.Engine.Purity
import AlertFlow.Proofs.Engine.Silence

/-!
What the notifier is called with in a run of the engine. A call begins with the event by which a
flush gets its snapshot. The flush comes from a firing of the timer, in the context of its group; a
firing leads to one call at most.
-/
namespace AlertFlow

/-- A firing of the timer of a group, with the flush that it leads to. -/
structure Firing where
  serial : Nat
  flush : Nat
  now : Instant

def Firing.key (x : Firing) : Nat × Nat := (x.serial, x.flush)

namespace Engine

variable {e : Engine}

/-! ## Calls and fires -/

/-- The calls of the notifier that are under way. -/
def calls (e : Engine) : List NotifyCall := e.allGroups.flatMap Group.calls

/-- The calls that an event begins: those under way after it whose flush had none under way. -/
def begun (e : Engine) (x : Event) : List NotifyCall :=
  (e.react x).calls.filter fun c => c.key ∉ e.calls.map NotifyCall.key

/-- The firing of a timer that an event is, if it leads to a flush. -/
def firing? (e : Engine) : Event → Option Firing
  | .step (.group serial (.fire m)) =>
    (e.group? serial).bind fun g =>
      if g.nextFlush < (g.fire m).nextFlush then some ⟨serial, g.nextFlush, m.wall⟩ else none
  | _ => none

/-- All calls of a run, and all firings. -/
def allCalls (e : Engine) : List Event → List NotifyCall := log begun e

def allFirings (e : Engine) : List Event → List Firing := log (fun e x => (e.firing? x).toList) e

/-- The flushes of a group are none, as they were, or come from a step of its own. -/
theorem flushes_of_react (hk : e.groups.Keyed) {x : Event} {g' : Group}
    (hg' : g' ∈ (e.react x).allGroups) :
    g'.flushes = [] ∨ ∃ g ∈ e.allGroups, g'.serial = g.serial ∧
      (g'.flushes = g.flushes ∨ ∃ s, x = .step (.group g.serial s) ∧ g' = g.step s) := by
  have hx := reacted e x
  generalize e.react x = e' at hx hg'
  cases hx with
  | idle => exact .inr ⟨g', hg', rfl, .inl rfl⟩
  | begun tick => exact .inr ⟨g', mem_allGroups_begin hg', rfl, .inl rfl⟩
  | finished => exact .inr ⟨g', mem_allGroups_endLoop hg', rfl, .inl rfl⟩
  | sorted loop on free m a r =>
    rcases mem_allGroups_sort hk hg' with rfl | hold
    · unfold taker
      cases hf : e.groups.find? r.id (r.grouping a.labels).fingerprint with
      | some g => exact .inr ⟨g, mem_allGroups.2 (.inl ⟨_, _, hf⟩), rfl, .inl rfl⟩
      | none =>
        exact .inl (flushes_newGroup (c := loop.isCancelled) e m.tick r (r.grouping a.labels))
    · exact .inr ⟨g', hold, rfl, .inl rfl⟩
  | stepped s =>
    obtain ⟨g, hg, hm⟩ := moved_step hg'
    refine .inr ⟨g, hg, hm.carried.serial_eq, ?_⟩
    cases hm with
    | still | cancelled => exact .inl rfl
    | stepped s' own => exact .inr ⟨s', by rw [own], rfl⟩

/-- **What a call is made for and with**: a flush of a group that had no snapshot, in the context of
the flush, with the alerts that the group holds now. -/
theorem mem_begun (hk : e.groups.Keyed) {x : Event} {c : NotifyCall} (h : c ∈ e.begun x) :
    ∃ g ∈ e.allGroups, ∃ f ∈ g.flushes, f.snapshot = none ∧
      c = ⟨g.serial, f.number, f.context, g.alerts⟩ ∧ g.alerts ≠ [] ∧ g.isCancelled = false := by
  obtain ⟨hc, hnew⟩ := List.mem_filter.1 h
  obtain ⟨g', hg', hc⟩ := List.mem_flatMap.1 hc
  have hnew : ∀ g ∈ e.allGroups, c.key ∉ g.calls.map NotifyCall.key := by
    intro g hg hmem
    obtain ⟨c', hc', hkey⟩ := List.mem_map.1 hmem
    refine of_decide_eq_true hnew (List.mem_map.2 ⟨c', ?_, hkey⟩)
    exact List.mem_flatMap.2 ⟨g, hg, hc'⟩
  rcases flushes_of_react hk hg' with hnone | ⟨g, hg, hserial, hsame | ⟨s, -, rfl⟩⟩
  · simp [Group.calls, hnone] at hc
  · have hcalls : g'.calls = g.calls := by rw [Group.calls, hsame, hserial, Group.calls]
    rw [hcalls] at hc
    exact absurd (List.mem_map_of_mem hc) (hnew g hg)
  · rcases Group.mem_calls_react (e := .step s) hc with hold | ⟨f, hf, hs, rfl, hfull⟩
    · exact absurd hold (hnew g hg)
    · exact ⟨g, hg, f, hf, hs, rfl, hfull⟩

theorem firing?_eq_some (hn : Numbered e) {x : Event} {y : Firing} (h : e.firing? x = some y) :
    ∃ g ∈ e.allGroups, ∃ m, x = .step (.group g.serial (.fire m)) ∧
      y = ⟨g.serial, g.nextFlush, m.wall⟩ ∧ g.nextFlush < (g.fire m).nextFlush := by
  cases x with
  | step s =>
    cases s with
    | group serial s =>
      cases s with
      | fire m =>
        obtain ⟨g, hg, hy⟩ := Option.bind_eq_some_iff.1 h
        obtain ⟨hmem, rfl⟩ := hn.group?_eq_some.1 hg
        split at hy
        · next hlt =>
          cases hy
          exact ⟨g, hmem, m, rfl, rfl, hlt⟩
        · cases hy
      | _ => cases h
    | _ => cases h
  | _ => cases h

/-- A flush was there before a step of its group, or the timer fired. -/
theorem fired_of_step (hn : Numbered e) {g : Group} (hg : g ∈ e.allGroups) {s : Group.Step}
    {f : Flush} (hf : f ∈ (g.step s).flushes) :
    (∃ f₀ ∈ g.flushes, f.number = f₀.number ∧ f.context = f₀.context) ∨
      e.firing? (.step (.group g.serial s)) = some ⟨g.serial, f.number, f.context.now⟩ := by
  cases (Group.change_react g (.step s)).flushOrigin hf with
  | kept f₀ mem number context | taken f₀ mem number context =>
    exact .inl ⟨f₀, mem, number, context⟩
  | opened number _ fired next =>
    cases s with
    | fire m =>
      have hnow : m.wall = f.context.now := Option.some.inj fired
      have hlt : g.nextFlush < (g.fire m).nextFlush := by
        have next : (g.fire m).nextFlush = g.nextFlush + 1 := next
        omega
      right
      simp only [firing?, hn.group?_eq_some.2 ⟨hg, rfl⟩, Option.bind_some, if_pos hlt]
      rw [number, hnow]
    | _ => cases fired

/-- Every flush of a run comes from a firing, and has its time. -/
theorem fired_run (tree : Route) (settings : EngineSettings) (events : List Event) {g : Group}
    (hg : g ∈ (Engine.run { tree, settings } events).allGroups) {f : Flush} (hf : f ∈ g.flushes) :
    ⟨g.serial, f.number, f.context.now⟩ ∈ allFirings { tree, settings } events := by
  induction events using List.reverseRecOn generalizing g f with
  | nil => cases (hg : g ∈ [])
  | append_singleton events x ih =>
    have hn := numbered_run tree settings events
    rw [run_concat] at hg
    rw [allFirings, log_concat, List.mem_append]
    rcases flushes_of_react hn.keyed hg with hnone | ⟨g₀, hg₀, hserial, hsame | ⟨s, rfl, rfl⟩⟩
    · rw [hnone] at hf
      cases hf
    · rw [hserial]
      exact .inl (ih hg₀ (hsame ▸ hf))
    · have hserial : (g₀.step s).serial = g₀.serial := Group.serial_react g₀ (.step s)
      rw [hserial]
      rcases fired_of_step hn hg₀ hf with ⟨f₀, hf₀, hnumber, hcontext⟩ | hfiring
      · rw [hnumber, hcontext]
        exact .inl (ih hg₀ hf₀)
      · rw [hfiring]
        exact .inr List.mem_cons_self

/-! ## One call for a flush, one flush for a firing -/

theorem mem_allGroups_step {g : Group} (hg : g ∈ e.allGroups) (s : Group.Step) :
    g.step s ∈ (e.step (.group g.serial s)).allGroups := by
  have hstep : e.step (.group g.serial s) =
    e.mapGroups fun g' => if g'.serial = g.serial then g'.step s else g' := rfl
  rw [hstep]
  refine mem_allGroups.2 ?_
  rcases mem_allGroups.1 hg with ⟨id, fp, hg⟩ | ⟨run, hg⟩ | hg
  · refine .inl ⟨id, fp, (GroupMap.find?_mapGroups e.groups _ id fp).trans ?_⟩
    rw [hg, Option.map_some, if_pos rfl]
  · exact .inr (.inl ⟨run, List.mem_map.2 ⟨_, hg, by simp⟩⟩)
  · rw [leaving?_mapGroups, hg, Option.map_some, if_pos rfl]
    exact .inr (.inr rfl)

/-- A flush that begins at a group with alerts leads to a call, unless the group is cancelled. -/
theorem begun_of_waiting (hn : Numbered e) {g : Group} (hg : g ∈ e.allGroups)
    {h : List Group.Note} (hl : Group.Ledger g.holdings g.flushes g.nextFlush h) {f : Flush}
    (hf : f ∈ g.flushes) (waiting : f.snapshot = none) (full : g.alerts ≠ [])
    (live : g.isCancelled = false) :
    ⟨g.serial, f.number, f.context, g.alerts⟩ ∈
      e.begun (.step (.group g.serial (.beginFlush f.number))) := by
  refine List.mem_filter.2 ⟨?_, decide_eq_true fun hold => ?_⟩
  · have hcall := Group.mem_calls_beginFlush hl hf waiting full live
    exact List.mem_flatMap.2 ⟨_, mem_allGroups_step hg (.beginFlush f.number), hcall⟩
  · obtain ⟨c, hc, hkey⟩ := List.mem_map.1 hold
    obtain ⟨g', hg', hc⟩ := List.mem_flatMap.1 hc
    obtain ⟨f', hf', s, hs, rfl⟩ := Group.mem_calls.1 hc
    obtain ⟨hserial, hnumber⟩ : g'.serial = g.serial ∧ f'.number = f.number := Prod.mk.inj hkey
    obtain rfl := hn.eq_of_serial hg' hg hserial
    rw [hl.eq_of_number hf' hf hnumber, waiting] at hs
    cases hs

theorem Carried.nextFlush_le {g g' : Group} (h : Carried g g') : g.nextFlush ≤ g'.nextFlush := by
  rcases h with rfl | ⟨x, rfl⟩
  · exact Nat.le_refl _
  · exact Group.nextFlush_le_react g x

theorem Carried.past {g g' : Group} {n : Nat} (h : Carried g g') (hp : g.Past n) : g'.Past n := by
  rcases h with rfl | ⟨x, rfl⟩
  · exact hp
  · exact hp.react x

/-- What a group has and keeps after an event, it has when the run has gone on. -/
theorem later_in_run (hn : Numbered e) (before : List Event) (x : Event) {between : List Event}
    {P : Group → Prop} (keeps : ∀ {g g' : Group}, Carried g g' → P g → P g') {g : Group}
    (hg : g ∈ ((e.run before).react x).allGroups) (h : P g) {g' : Group}
    (hg' : g' ∈ (e.run (before ++ x :: between)).allGroups) (hserial : g'.serial = g.serial) :
    P g' := by
  rw [run_append] at hg'
  exact ((hn.run before).react x).later keeps hg h between hg' hserial

/-- No two firings of a run lead to the same flush. -/
theorem nodup_allFirings (hn : Numbered e) (events : List Event) :
    ((allFirings e events).map Firing.key).Nodup := by
  refine nodup_log events (fun before x => ?_) fun before x between y a ha b hb hkey => ?_
  · cases (e.run before).firing? x with
    | none => exact List.nodup_nil
    | some y => exact List.nodup_singleton _
  · obtain ⟨g, hg, m, rfl, rfl, hlt⟩ := firing?_eq_some (hn.run before) (Option.mem_toList.1 ha)
    obtain ⟨g', hg', m', -, rfl, -⟩ := firing?_eq_some (hn.run _) (Option.mem_toList.1 hb)
    obtain ⟨hserial, hnumber⟩ : g.serial = g'.serial ∧ g.nextFlush = g'.nextFlush :=
      Prod.mk.inj hkey
    -- the group has gone past the number of the flush, and never comes back to it
    have hfire : g.fire m ∈ ((e.run before).react (.step (.group g.serial (.fire m)))).allGroups :=
      mem_allGroups_step hg (.fire m)
    have hserial' : (g.fire m).serial = g.serial := Group.serial_react g (.step (.fire m))
    have hpast : g.nextFlush < g'.nextFlush :=
      later_in_run hn before _ (P := fun g' => g.nextFlush < g'.nextFlush)
        (fun h hlt => Nat.lt_of_lt_of_le hlt h.nextFlush_le) hfire hlt hg'
        (hserial.symm.trans hserial'.symm)
    omega

/-- No two calls that are under way are made for the same flush. -/
theorem nodup_calls (hn : Numbered e)
    (hf : ∀ g ∈ e.allGroups, (g.flushes.map (·.number)).Nodup) :
    (e.calls.map NotifyCall.key).Nodup := by
  rw [calls, List.map_flatMap, List.nodup_flatMap]
  constructor
  · intro g hg
    refine List.Nodup.of_map Prod.snd ?_
    rw [List.map_map]
    exact g.sublist_calls.nodup (hf g hg)
  · refine (List.pairwise_map.1 hn.nodup).imp fun hne => List.disjoint_left.2 fun k hk hk' => ?_
    obtain ⟨c, hc, rfl⟩ := List.mem_map.1 hk
    obtain ⟨c', hc', hkey⟩ := List.mem_map.1 hk'
    obtain ⟨f, hf, s, hs, rfl⟩ := Group.mem_calls.1 hc
    obtain ⟨f', hf', s', hs', rfl⟩ := Group.mem_calls.1 hc'
    exact hne (Prod.mk.inj hkey).1.symm

/-- No two calls of a run are made for the same flush. -/
theorem nodup_allCalls (tree : Route) (settings : EngineSettings) (events : List Event) :
    ((allCalls { tree, settings } events).map NotifyCall.key).Nodup := by
  have hn := Numbered.start tree settings
  have hled : ∀ before x, ∀ g ∈ ((Engine.run { tree, settings } before).react x).allGroups,
      ∃ h, Group.Ledger g.holdings g.flushes g.nextFlush h := by
    intro before x g hg
    rw [← run_concat] at hg
    exact ⟨_, (lived_run tree settings _ hg).ledger⟩
  refine nodup_log events (fun before x => ?_) fun before x between y a ha b hb hkey => ?_
  · refine (List.filter_sublist.map _).nodup (nodup_calls ((hn.run before).react x) fun g hg => ?_)
    obtain ⟨h, hl⟩ := hled before x g hg
    exact hl.numbers
  · obtain ⟨hmem, -⟩ := List.mem_filter.1 ha
    obtain ⟨g, hg, hmem⟩ := List.mem_flatMap.1 hmem
    obtain ⟨f, hf, s, hs, rfl⟩ := Group.mem_calls.1 hmem
    obtain ⟨g', hg', f', hf', hwaits, rfl, -⟩ := mem_begun (hn.run _).keyed hb
    obtain ⟨hserial, hnumber⟩ : g.serial = g'.serial ∧ f.number = f'.number := Prod.mk.inj hkey
    obtain ⟨h, hl⟩ := hled before x g hg
    have hpast : g.Past f.number := by
      refine ⟨hl.bound f hf, fun f₁ hf₁ hsame => ?_⟩
      rw [hl.eq_of_number hf₁ hf hsame, hs]
      rfl
    have hpast' := later_in_run hn before x (fun h hp => Carried.past h hp) hg hpast hg'
      hserial.symm
    have := hpast'.2 f' hf' hnumber.symm
    rw [hwaits] at this
    cases this

/-- **What every notification is**, in every run, however flushes overlap. A call of the notifier is
made for one group. Its context has the key, the grouping labels, the receiver and the repeat
interval of the group, and the time of a firing of its timer. Its alerts are not none, differ in
their fingerprints, and are all that the group holds when the call begins: of each fingerprint the
version inserted last, unless it has been cleared since. The route of the group is selected for each
of them, and groups it under the fingerprint of the grouping labels in the context. A flush that
waits leads to a call when it begins, unless its group is empty or cancelled. No two firings have
the same flush, and no two calls are made for the same flush. -/
theorem notifications_whole {tree : Route} (hd : tree.DistinctIds) (settings : EngineSettings)
    {events : List Event} (hr : Routed tree events) :
    let e₀ : Engine := { tree, settings }
    let e := e₀.run events
    (∀ x, ∀ c ∈ e.begun x, ∃ g ∈ e.allGroups,
      (∀ g' ∈ e.allGroups, g'.serial = c.serial ↔ g' = g) ∧
      (c.context.groupKey = g.labels.fingerprint.combine g.route.fingerprint ∧
        c.context.groupLabels = g.labels ∧ c.context.receiver = g.route.options.receiver ∧
        c.context.repeatInterval = g.route.options.repeatInterval) ∧
      ⟨c.serial, c.flush, c.context.now⟩ ∈ e₀.allFirings events ∧
      c.alerts ≠ [] ∧ (c.alerts.map Alert.fingerprint).Nodup ∧ c.alerts = g.alerts ∧
      (∀ a, a ∈ c.alerts ↔ ∃ before after,
        e₀.history c.serial events = before ++ .inserted a :: after ∧
          (∀ b, .inserted b ∈ after → b.fingerprint ≠ a.fingerprint) ∧
          ¬ Group.Cleared a after) ∧
      ∀ a ∈ c.alerts, g.route ∈ tree.select a.labels ∧
        (g.route.grouping a.labels).fingerprint = c.context.groupLabels.fingerprint) ∧
    (∀ g ∈ e.allGroups, ∀ f ∈ g.flushes, f.snapshot = none → g.alerts ≠ [] →
      g.isCancelled = false → ⟨g.serial, f.number, f.context, g.alerts⟩ ∈
        e.begun (.step (.group g.serial (.beginFlush f.number)))) ∧
    ((e₀.allFirings events).map Firing.key).Nodup ∧
    ((e₀.allCalls events).map NotifyCall.key).Nodup := by
  intro e₀ e
  have hn : Numbered e := numbered_run tree settings events
  refine ⟨fun x c hc => ?_, fun g hg f hf waiting full live => ?_,
    nodup_allFirings (.start tree settings) events, nodup_allCalls tree settings events⟩
  · obtain ⟨g, hg, f, hf, -, rfl, hfull, -⟩ := mem_begun hn.keyed hc
    have hlived := lived_run tree settings events hg
    have hcontext := hlived.addressed f hf
    have hfired := fired_run tree settings events hg hf
    refine ⟨g, hg, fun g' hg' => ?_, ?_, hfired, hfull, Group.nodup_alerts hlived.ledger, rfl,
      fun a => hlived.mem_alerts_iff, fun a ha => ?_⟩
    · constructor
      · exact fun hserial => hn.eq_of_serial hg' hg hserial
      · exact fun h => congrArg Group.serial h
    · rw [hcontext]
      exact ⟨rfl, rfl, rfl, rfl⟩
    · obtain ⟨fp, hfp⟩ := Group.mem_alerts.1 ha
      obtain ⟨rev, hheld⟩ := Group.held?_eq_some.1 hfp
      obtain ⟨-, hselect, hgrouping⟩ := (pure_run hd settings hr g hg).held fp _ hheld
      refine ⟨hselect, ?_⟩
      rw [hcontext]
      exact hgrouping
  · have hl := (lived_run tree settings events hg).ledger
    exact begun_of_waiting hn hg hl hf waiting full live

/-- The timer of a group has fired, and another alert came in before the flush has begun. -/
def lateAlertRun : List Event :=
  [.begin 0, .sort (Group.secondsIn 0) (Group.alertFrom "A" 0) namedRoute,
    .step (.group 0 (.fire (Group.secondsIn 30))),
    .sort (Group.secondsIn 31) Group.zonedAlert namedRoute]

/-- The alert that came in after the timer had fired is notified too. -/
theorem late_alert_notified :
    let e := Engine.run { tree := namedRoute } lateAlertRun
    ∃ c ∈ e.begun (.step (.group 0 (.beginFlush 0))), c.alerts.length = 2 ∧
      ∃ g ∈ e.allGroups, c.context.groupLabels = g.labels ∧ c.alerts = g.alerts ∧
        ∀ a ∈ c.alerts, (g.route.grouping a.labels).fingerprint =
          c.context.groupLabels.fingerprint := by
  intro e
  have hrouted : Routed namedRoute lateAlertRun := by
    intro m a r hmem
    simp only [lateAlertRun, List.mem_cons, List.not_mem_nil, Event.sort.injEq, reduceCtorEq,
      false_or, or_false] at hmem
    rcases hmem with ⟨-, rfl, rfl⟩ | ⟨-, rfl, rfl⟩ <;> exact List.mem_cons_self
  obtain ⟨h, -⟩ := notifications_whole (by decide +kernel) {} hrouted
  have hcall : ∃ c ∈ e.begun (.step (.group 0 (.beginFlush 0))), c.alerts.length = 2 := by
    decide +kernel
  obtain ⟨c, hc, hlength⟩ := hcall
  obtain ⟨g, hg, -, ⟨-, hlabels, -⟩, -, -, -, halerts, -, hfits⟩ := h _ c hc
  exact ⟨c, hc, hlength, g, hg, hlabels, halerts, fun a ha => (hfits a ha).2⟩

end Engine

end AlertFlow
