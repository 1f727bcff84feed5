import AlertFlow.Proofs.Engine.Run
import AlertFlow.Proofs.Group.Silence

/-!
Which groups can still notify. As long as each run of the main loop is stopped before the next one
begins, a group that has not been cancelled stands in the map under its route and fingerprint, and a
call to stop cancels every group. A run that was exhausted is still registered; the next run takes
its place, and from then on nothing cancels the groups that it left.
-/
namespace AlertFlow.Engine

variable {e : Engine}

/-! ## Numbers -/

/-- Groups stand at their places, and have numbers of their own. -/
structure Numbered (e : Engine) : Prop where
  keyed : e.groups.Keyed
  nodup : e.serials.Nodup
  bound : ∀ n ∈ e.serials, n < e.created

theorem created_le_run (hk : e.groups.Keyed) (events : List Event) :
    e.created ≤ (e.run events).created := by
  induction events generalizing e with
  | nil => exact Nat.le_refl _
  | cons x events ih =>
    refine Nat.le_trans ?_ (ih (keyed_react hk x))
    cases turnover_react hk x with
    | kept _ created | shrunk _ _ _ _ created => exact Nat.le_of_eq created.symm
    | grown _ created => exact created ▸ Nat.le_succ _

theorem Carried.persists {g g' : Group} (h : Carried g g') : Group.Persists g g' := by
  rcases h with rfl | ⟨x, rfl⟩
  · exact .refl _
  · exact Group.persists_react g x

namespace Numbered

theorem start (tree : Route) (settings : EngineSettings) : Numbered { tree, settings } where
  keyed := by simp [GroupMap.Keyed]
  nodup := List.nodup_nil
  bound := by simp [serials, allGroups, leaving?, sweep?]

theorem react (hn : Numbered e) (x : Event) : Numbered (e.react x) := by
  have hk := keyed_react hn.keyed x
  have ht := turnover_react hn.keyed x
  generalize e.react x = e' at hk ht
  cases ht with
  | kept perm created =>
    refine ⟨hk, perm.nodup_iff.2 hn.nodup, fun n hmem => ?_⟩
    rw [created]
    exact hn.bound n (perm.mem_iff.1 hmem)
  | grown perm created =>
    have hnew : e.created ∉ e.serials := fun hmem => Nat.lt_irrefl _ (hn.bound _ hmem)
    refine ⟨hk, perm.nodup_iff.2 (List.nodup_cons.2 ⟨hnew, hn.nodup⟩), fun n hmem => ?_⟩
    rw [created]
    rcases List.mem_cons.1 (perm.mem_iff.1 hmem) with rfl | hmem
    · exact Nat.lt_succ_self _
    · exact Nat.lt_succ_of_lt (hn.bound n hmem)
  | shrunk g _ _ perm created =>
    have hnodup := perm.nodup_iff.1 hn.nodup
    refine ⟨hk, (List.nodup_cons.1 hnodup).2, fun n hmem => ?_⟩
    rw [created]
    exact hn.bound n (perm.mem_iff.2 (List.mem_cons_of_mem _ hmem))

theorem run (hn : Numbered e) (events : List Event) : Numbered (e.run events) :=
  run_keeps (fun _ x _ hn => hn.react x) hn

/-- Two groups whose timers may run are the same if their numbers are. -/
theorem eq_of_serial (hn : Numbered e) {g g' : Group} (hg : g ∈ e.allGroups)
    (hg' : g' ∈ e.allGroups) (h : g.serial = g'.serial) : g = g' :=
  List.inj_on_of_nodup_map hn.nodup hg hg' h

/-- What groups keep as they react, a group that is there has in every run from then on. -/
theorem later (hn : Numbered e) {P : Group → Prop}
    (keeps : ∀ {g g' : Group}, Carried g g' → P g → P g') {g : Group} (hg : g ∈ e.allGroups)
    (h : P g) (events : List Event) {g' : Group} (hg' : g' ∈ (e.run events).allGroups)
    (hserial : g'.serial = g.serial) : P g' := by
  induction events using List.reverseRecOn generalizing g' with
  | nil =>
    rw [hn.eq_of_serial hg' hg hserial]
    exact h
  | append_singleton events x ih =>
    rw [run_concat] at hg'
    cases origin_react (hn.run events).keyed x hg' with
    | carried g'' mem carried =>
      exact keeps carried (ih mem (carried.serial_eq.symm.trans hserial))
    | created loop _ labels route evs heq =>
      -- a new group has a number that no group had before
      have hnew : g'.serial = (e.run events).created := heq ▸ (Group.persists_run _ evs).serial
      have hle := created_le_run hn.keyed events
      have hlt := hn.bound _ (List.mem_map_of_mem hg)
      omega

theorem persists_later (hn : Numbered e) {g g' : Group} (hg : g ∈ e.allGroups)
    (events : List Event) (hg' : g' ∈ (e.run events).allGroups) (hserial : g'.serial = g.serial) :
    Group.Persists g g' :=
  hn.later (fun h hp => hp.trans h.persists) hg (.refl g) events hg' hserial

end Numbered

/-! ## Reach -/

/-- The groups of the map are within the reach of a call to stop: such a call ends the run to which
they belong, or it has been made already and they are cancelled. So are groups that leave the map.
-/
structure InReach (e : Engine) : Prop where
  registered : ∀ run, e.registered = some run → run = e.groupsRun
  loop : ∀ loop, e.mainLoop = some loop → loop.run = e.groupsRun
  stopped : e.registered = none → ∀ loop, e.mainLoop = some loop → loop.isCancelled = true
  stored : e.registered = none → ∀ id fp g, e.groups.find? id fp = some g → g.isCancelled = true
  leaving : ∀ g, e.leaving? = some g → g.isCancelled = true

theorem Carried.isCancelled {g g' : Group} (h : Carried g g') (hc : g.isCancelled = true) :
    g'.isCancelled = true :=
  h.persists.cancelled hc

/-- A step but a call to stop leaves the main loop on the run that it is on. -/
theorem loop_of_step {s : Step} (hs : s ≠ .stop) {loop' : MainLoop}
    (h : (e.step s).mainLoop = some loop') :
    ∃ loop, e.mainLoop = some loop ∧ loop'.run = loop.run ∧
      loop'.isCancelled = loop.isCancelled := by
  have hst := stepped e s
  generalize e.step s = e' at h hst
  cases hst with
  | moved =>
    obtain ⟨loop, on, rfl⟩ := Option.map_eq_some_iff.1 h
    exact ⟨loop, on, rfl, rfl⟩
  | idle => exact ⟨loop', h, rfl, rfl⟩
  | started _ loop on | swept loop _ on | cleared loop _ on =>
    cases h
    exact ⟨loop, on, rfl, rfl⟩
  | stopped => exact absurd rfl hs

theorem registered_of_step {s : Step} (hs : s ≠ .stop) :
    (e.step s).registered = e.registered ∧ (e.step s).groupsRun = e.groupsRun := by
  have hst := stepped e s
  generalize e.step s = e' at hst
  cases hst with
  | stopped => exact absurd rfl hs
  | _ => exact ⟨rfl, rfl⟩

namespace InReach

theorem start (tree : Route) (settings : EngineSettings) : InReach { tree, settings } where
  registered := by simp
  loop := by simp
  stopped := by simp
  stored := by simp
  leaving := by simp [leaving?, sweep?]

theorem begin (e : Engine) (tick : Nat) : InReach (e.begin tick) where
  registered := by simp [Engine.begin]
  loop := fun loop on => congrArg MainLoop.run (eq_of_mainLoop_begin on)
  stopped := by simp [Engine.begin]
  stored := by simp [Engine.begin]
  leaving := by simp

theorem endLoop (hr : InReach e) : InReach e.endLoop where
  registered := hr.registered
  loop := by simp [Engine.endLoop]
  stopped := by simp [Engine.endLoop]
  stored := hr.stored
  leaving := by simp [Engine.endLoop, leaving?, sweep?]

theorem sort (hr : InReach e) (hk : e.groups.Keyed) {loop : MainLoop}
    (on : e.mainLoop = some loop) (m : Moment) (a : Alert) (r : Route) :
    InReach (sort m loop.isCancelled a e r) := by
  have hstored : e.registered = none → ∀ id fp g,
      (Engine.sort m loop.isCancelled a e r).groups.find? id fp = some g →
        g.isCancelled = true := by
    intro hnone id fp g hg
    rw [find?_sort hk] at hg
    split at hg
    · cases hg
      show (e.taker m loop.isCancelled a.labels r).isCancelled = true
      unfold taker
      cases hf : e.groups.find? r.id (r.grouping a.labels).fingerprint with
      | some g => exact hr.stored hnone _ _ g hf
      | none =>
        rw [Option.getD_none, newGroup_eq]
        exact (Group.persists_react _ _).cancelled (hr.stopped hnone loop on)
    · exact hr.stored hnone id fp g hg
  rw [sort_eq] at hstored ⊢
  exact ⟨hr.registered, hr.loop, hr.stopped, hstored, hr.leaving⟩

theorem leaving_step (hr : InReach e) {s : Step} {g' : Group}
    (h : (e.step s).leaving? = some g') : g'.isCancelled = true := by
  rcases moved_leaving h with ⟨g, hg, hm⟩ | ⟨id, fp, g, -, hg, -, rfl⟩
  · exact hm.carried.isCancelled (hr.leaving g hg)
  · rfl

theorem step_ne_stop (hr : InReach e) {s : Step} (hs : s ≠ .stop) : InReach (e.step s) := by
  obtain ⟨hreg, hrun⟩ := registered_of_step (e := e) hs
  refine ⟨?_, ?_, ?_, ?_, fun g hg => hr.leaving_step hg⟩
  · rw [hreg, hrun]
    exact hr.registered
  · intro loop' hloop'
    obtain ⟨loop, hloop, hsame, -⟩ := loop_of_step hs hloop'
    rw [hrun, hsame]
    exact hr.loop loop hloop
  · intro hnone loop' hloop'
    obtain ⟨loop, hloop, -, hsame⟩ := loop_of_step hs hloop'
    rw [hreg] at hnone
    rw [hsame]
    exact hr.stopped hnone loop hloop
  · intro hnone id fp g' hg'
    obtain ⟨g, hg, rfl⟩ := find?_of_step hg'
    rw [hreg] at hnone
    exact (moved_movedBy e s g).carried.isCancelled (hr.stored hnone id fp g hg)

/-- **A call to stop cancels the groups of the map**, and the run to which they belong. -/
theorem stop (hr : InReach e) :
    InReach (e.step .stop) ∧ (e.step .stop).registered = none := by
  have hleaving : ∀ g, (e.step .stop).leaving? = some g → g.isCancelled = true :=
    fun g hg => hr.leaving_step hg
  have hst := stepped e .stop
  generalize e.step .stop = e' at hleaving hst
  cases hst with
  | idle _ unregistered => exact ⟨hr, unregistered rfl⟩
  | stopped run registered =>
    obtain rfl := hr.registered run registered
    refine ⟨⟨by simp, ?_, ?_, ?_, hleaving⟩, rfl⟩
    · intro loop' hloop'
      obtain ⟨loop, hloop, rfl⟩ := Option.map_eq_some_iff.1 hloop'
      have := hr.loop loop hloop
      split <;> exact this
    · intro _ loop' hloop'
      obtain ⟨loop, hloop, rfl⟩ := Option.map_eq_some_iff.1 hloop'
      rw [if_pos (hr.loop loop hloop)]
    · intro _ id fp g' hg'
      simp only [cancelRun, if_true, GroupMap.find?_mapGroups] at hg'
      obtain ⟨g, -, rfl⟩ := Option.map_eq_some_iff.1 hg'
      rfl

theorem react (hr : InReach e) (hk : e.groups.Keyed) (x : Event) : InReach (e.react x) := by
  have hx := reacted e x
  generalize e.react x = e' at hx
  cases hx with
  | idle => exact hr
  | begun tick off => exact .begin e tick
  | sorted loop on free m a route => exact hr.sort hk on m a route
  | finished => exact hr.endLoop
  | stepped s =>
    by_cases hs : s = .stop
    · subst hs
      exact hr.stop.1
    · exact hr.step_ne_stop hs

theorem run (hr : InReach e) (hn : Numbered e) (events : List Event) :
    InReach (e.run events) := by
  induction events using List.reverseRecOn with
  | nil => exact hr
  | append_singleton events x ih =>
    rw [run_concat]
    exact ih.react (hn.run events).keyed x

end InReach

/-! ## Strays -/

/-- The run that an event overlooks: one that is still registered when the next one begins. It was
exhausted, and it was not stopped. -/
def overlooks? (e : Engine) : Event → Option Nat
  | .begin _ => if e.mainLoop.isSome then none else e.registered
  | _ => none

/-- The runs that are overlooked by a list of events. -/
def overlooked : Engine → List Event → List Nat
  | _, [] => []
  | e, x :: xs => (e.overlooks? x).toList ++ overlooked (e.react x) xs

theorem overlooked_concat (e : Engine) (events : List Event) (x : Event) :
    e.overlooked (events ++ [x]) =
      e.overlooked events ++ ((e.run events).overlooks? x).toList := by
  induction events generalizing e with
  | nil => simp [overlooked, run]
  | cons y events ih => simp [overlooked, run, ih]

/-- A group that is out of the map was cancelled, or the run that it belongs to was overlooked. -/
def Accounted (e : Engine) (runs : List Nat) : Prop :=
  ∀ run g, (run, g) ∈ e.detached → g.isCancelled = true ∨ run ∈ runs

theorem Accounted.react {runs : List Nat} (ha : Accounted e runs) (hr : InReach e) (x : Event) :
    Accounted (e.react x) (runs ++ (e.overlooks? x).toList) := by
  have stays : Accounted e (runs ++ (e.overlooks? x).toList) := fun run g hg =>
    (ha run g hg).imp_right (List.mem_append_left _)
  have hx := reacted e x
  generalize e.react x = e' at hx
  cases hx with
  | idle | finished => exact stays
  | begun tick off =>
    intro run g hg
    rcases List.mem_append.1 hg with hg | hg
    · exact stays run g hg
    · -- a group of the map, which is emptied
      obtain ⟨g, hmem, heq⟩ := List.mem_map.1 hg
      cases heq
      obtain ⟨id, fp, hfound⟩ := GroupMap.mem_toGroups.1 hmem
      cases hreg : e.registered with
      | none => exact .inl (hr.stored hreg id fp g hfound)
      | some run =>
        obtain rfl := hr.registered run hreg
        right
        simp [overlooks?, hreg, off]
  | sorted =>
    rw [sort_eq]
    exact stays
  | stepped s =>
    intro run g' hg'
    obtain ⟨g, hg, hm⟩ := moved_detached hg'
    exact (stays run g hg).imp_left hm.carried.isCancelled

section Runs

variable (tree : Route) (settings : EngineSettings) (events : List Event)

theorem numbered_run : Numbered (Engine.run { tree, settings } events) :=
  (Numbered.start tree settings).run events

theorem inReach_run : InReach (Engine.run { tree, settings } events) :=
  (InReach.start tree settings).run (.start tree settings) events

theorem accounted_run : Accounted (Engine.run { tree, settings } events)
    (overlooked { tree, settings } events) := by
  induction events using List.reverseRecOn with
  | nil => simp [Accounted, run]
  | append_singleton events x ih =>
    rw [run_concat, overlooked_concat]
    exact ih.react (inReach_run tree settings events) x

/-- A group that was created is there, or it was cancelled before. -/
theorem created_run (n : Nat) (hn : n < (Engine.run { tree, settings } events).created) :
    n ∈ (Engine.run { tree, settings } events).serials ∨
      ∃ before after, events = before ++ after ∧
        ∃ g ∈ (Engine.run { tree, settings } before).allGroups,
          g.serial = n ∧ g.isCancelled = true := by
  induction events using List.reverseRecOn with
  | nil => cases hn
  | append_singleton events x ih =>
    have earlier : (∃ before after, events = before ++ after ∧
        ∃ g ∈ (Engine.run { tree, settings } before).allGroups,
          g.serial = n ∧ g.isCancelled = true) →
        ∃ before after, events ++ [x] = before ++ after ∧
          ∃ g ∈ (Engine.run { tree, settings } before).allGroups,
            g.serial = n ∧ g.isCancelled = true := by
      intro h
      obtain ⟨before, after, rfl, h⟩ := h
      exact ⟨before, after ++ [x], List.append_assoc _ _ _, h⟩
    have ht := turnover_react (numbered_run tree settings events).keyed x
    rw [run_concat] at hn ⊢
    cases ht with
    | kept perm created =>
      rw [created] at hn
      exact (ih hn).imp perm.mem_iff.2 earlier
    | grown perm created =>
      rw [created] at hn
      rcases Nat.lt_succ_iff_lt_or_eq.1 hn with hn | rfl
      · exact (ih hn).imp (fun h => perm.mem_iff.2 (List.mem_cons_of_mem _ h)) earlier
      · exact .inl (perm.mem_iff.2 List.mem_cons_self)
    | shrunk g leaving _ perm created =>
      rw [created] at hn
      rcases ih hn with h | h
      · rcases List.mem_cons.1 (perm.mem_iff.1 h) with rfl | h
        · -- the group that is let go had been taken out of the map
          have hcancelled := (inReach_run tree settings events).leaving g leaving
          exact .inr ⟨events, [x], rfl, g, mem_allGroups.2 (.inr (.inr leaving)), rfl, hcancelled⟩
        · exact .inl h
      · exact .inr (earlier h)

/-- A group that was not cancelled stands in the map, as long as a call to stop would cancel it, or
its run was overlooked. -/
theorem stored_or_stray {g : Group} (hg : g ∈ (Engine.run { tree, settings } events).allGroups)
    (hlive : g.isCancelled = false) :
    ((Engine.run { tree, settings } events).registered ≠ none ∧
        (Engine.run { tree, settings } events).groups.find? g.route.id g.fingerprint = some g) ∨
      ∃ run ∈ overlooked { tree, settings } events,
        (run, g) ∈ (Engine.run { tree, settings } events).detached := by
  have hr := inReach_run tree settings events
  have hn := numbered_run tree settings events
  rcases mem_allGroups.1 hg with ⟨id, fp, hfound⟩ | ⟨run, hdetached⟩ | hleaving
  · obtain ⟨rfl, rfl⟩ := hn.keyed id fp g hfound
    refine .inl ⟨fun hnone => ?_, hfound⟩
    rw [hr.stored hnone _ _ g hfound] at hlive
    cases hlive
  · rcases accounted_run tree settings events run g hdetached with hc | hmem
    · rw [hc] at hlive
      cases hlive
    · exact .inr ⟨run, hmem, hdetached⟩
  · rw [hr.leaving g hleaving] at hlive
    cases hlive

end Runs

/-- **No group is astray but those of overlooked runs.** In every state the groups have numbers of
their own, and each group that was ever created is there or was cancelled before. A group that is
not cancelled stands in the map under its route and fingerprint, unless its run was exhausted and
then overlooked by the run that began next; and a call to stop leaves no other group uncancelled
than these. -/
theorem strays_overlooked (tree : Route) (settings : EngineSettings) (events : List Event) :
    let e₀ : Engine := { tree, settings }
    let e := e₀.run events
    e.serials.Nodup ∧
    (∀ n < e.created, n ∈ e.serials ∨ ∃ before after, events = before ++ after ∧
      ∃ g ∈ (e₀.run before).allGroups, g.serial = n ∧ g.isCancelled = true) ∧
    (∀ g ∈ e.allGroups, g.isCancelled = false →
      e.groups.find? g.route.id g.fingerprint = some g ∨
        ∃ run ∈ e₀.overlooked events, (run, g) ∈ e.detached) ∧
    (∀ g ∈ (e.step .stop).allGroups, g.isCancelled = false →
      ∃ run ∈ e₀.overlooked events, (run, g) ∈ (e.step .stop).detached) := by
  intro e₀ e
  refine ⟨(numbered_run tree settings events).nodup, created_run tree settings events, ?_, ?_⟩
  · intro g hg hlive
    exact (stored_or_stray tree settings events hg hlive).imp_left And.right
  · have hstop : e.step .stop = e₀.run (events ++ [.step .stop]) :=
      (run_concat e₀ events (.step .stop)).symm
    have hnone : (e.step .stop).registered = none := (inReach_run tree settings events).stop.2
    have hsame : e₀.overlooked (events ++ [.step .stop]) = e₀.overlooked events := by
      simp [overlooked_concat, overlooks?]
    intro g hg hlive
    rw [hstop] at hg hnone ⊢
    rcases stored_or_stray tree settings _ hg hlive with ⟨hsome, -⟩ | hstray
    · exact absurd hnone hsome
    · rwa [← hsame]

/-- A run of the main loop is exhausted, the next one begins, and then there is a call to stop. -/
def exhaustedRun : List Event :=
  [.begin 0, .sort (Group.secondsIn 0) (Group.alertFrom "A" 0)
      (Group.timedRoute (.ofSecs 30) (.ofSecs 300)),
    .finish, .begin 1000, .step .stop]

/-- The group that an overlooked run left is not in the map, was not cancelled by the call to stop,
and delivers its alert when its timer fires. -/
theorem overlooked_group_notifies :
    let e := Engine.run { tree := Group.timedRoute (.ofSecs 30) (.ofSecs 300) } exhaustedRun
    ∃ g ∈ e.allGroups, g.isCancelled = false ∧
      (e.groups.find? g.route.id g.fingerprint).isNone = true ∧
      ((g.fire (Group.secondsIn 30)).beginFlush 0).isDelivering 0 = true := by
  decide +kernel

end AlertFlow.Engine
