import AlertFlow.Proofs.Engine.Classification
import AlertFlow.Proofs.Engine.Succession

/-!
What a sweep takes out of the map. A group that it finds empty stays empty, since nothing is
inserted while the sweep is on, and is let go once its timer and its flushes have ended; a group
that holds an alert when its route is looked through stays where it is, whatever its own deliveries
make of it meanwhile.
-/
namespace AlertFlow.Engine

variable {e : Engine}

/-! ## What happens at a sweep -/

/-- Whether a sweep is under way at each of some events. -/
def AtSweep : Engine → List Event → Prop
  | _, [] => True
  | e, x :: events => e.sweep?.isSome = true ∧ AtSweep (e.react x) events

theorem atSweep_concat {events : List Event} {x : Event} :
    AtSweep e (events ++ [x]) ↔ AtSweep e events ∧ (e.run events).sweep?.isSome = true := by
  induction events generalizing e with
  | nil => simp [AtSweep, run]
  | cons y events ih =>
    rw [List.cons_append, AtSweep, ih, AtSweep, and_assoc]
    rfl

/-- At a sweep nothing happens but steps. -/
theorem step_or_idle (hs : e.sweep?.isSome = true) (x : Event) :
    (∃ s, x = .step s) ∨ (e.react x = e ∧ ∀ n, e.note? n x = none) := by
  obtain ⟨⟨run, c, nextSweep, sweep⟩, on⟩ : ∃ loop, e.mainLoop = some loop := by
    cases on : e.mainLoop with
    | none => simp [sweep?, on] at hs
    | some loop => exact ⟨loop, rfl⟩
  obtain ⟨sw, rfl⟩ : ∃ sw, sweep = some sw := by
    rw [sweep?, on, Option.bind_some] at hs
    exact Option.isSome_iff_exists.1 hs
  cases x with
  | begin tick => exact .inr ⟨by simp [react, on], fun n => rfl⟩
  | sort m a r => exact .inr ⟨by simp only [react, on], fun n => by simp only [note?, on]⟩
  | finish => exact .inr ⟨by simp only [react, on], fun n => rfl⟩
  | step s => exact .inl ⟨s, rfl⟩

/-- A sweep that starts has found nothing yet. -/
theorem sweep_started (hs : e.sweep? = none) {x : Event} {sw : Sweep}
    (h : (e.react x).sweep? = some sw) : sw.found = [] ∧ sw.leaving = none := by
  have contra : e.sweep? = some sw → sw.found = [] ∧ sw.leaving = none := by
    intro h
    rw [hs] at h
    cases h
  have hx := reacted e x
  generalize e.react x = e' at hx h
  cases hx with
  | idle => exact contra h
  | begun tick =>
    rw [sweep?_begin] at h
    cases h
  | finished => cases h
  | sorted loop on free m a r =>
    rw [sweep?, mainLoop_sort] at h
    exact contra h
  | stepped s =>
    have hst := stepped e s
    generalize e.step s = e' at hst h
    cases hst with
    | moved serial s =>
      rw [sweep?_mapGroups, hs] at h
      cases h
    | idle => exact contra h
    | started =>
      cases h
      exact ⟨rfl, rfl⟩
    | swept loop sw on sweeping =>
      rw [sweep?_of_loop on sweeping] at hs
      cases hs
    | cleared => cases h
    | stopped run =>
      have h : (e.cancelRun run).sweep? = some sw := h
      rw [sweep?_cancelRun] at h
      exact contra h

/-- Moved by a step, a group that holds nothing goes on holding nothing. -/
theorem Moved.isEmpty {s : Step} {g g' : Group} (hm : Moved s g g') (h : g.isEmpty = true) :
    g'.isEmpty = true := by
  cases hm with
  | still | cancelled => exact h
  | stepped s' =>
    exact Group.isEmpty_of_change (Group.change_react g (.step s')) (g.note?_step_ne_inserted s') h

/-- A group that is taken out of the map is cancelled, and the sweep waits for it to end. -/
theorem leaving_of_clearedBy {s : Step} {id : RouteId} {fp : Fingerprint} {g : Group}
    (h : e.clearedBy? s = some (id, fp)) (hg : e.groups.find? id fp = some g) :
    s = .stepSweep ∧ (e.step s).leaving? = some g.cancel := by
  cases s with
  | stepSweep =>
    refine ⟨rfl, ?_⟩
    obtain ⟨⟨routes, found, leaving⟩, hsw, hswept⟩ := Option.bind_eq_some_iff.1 h
    obtain ⟨loop, on, sweeping⟩ := Option.bind_eq_some_iff.1 hsw
    cases leaving with
    | some g => cases hswept
    | none =>
      cases found with
      | nil => cases hswept
      | cons place found =>
        cases hswept
        have hbusy : Sweep.isDone { routes, found := (id, fp) :: found } = false := by
          simp [Sweep.isDone]
        simp [step, stepSweep, on, sweeping, hbusy, leaving?, sweep?, Sweep.step, hg]
  | group serial s => cases h
  | startSweep tick => cases h
  | stop => cases h

/-- A group that was started has ended when its timer has and no flush is under way. -/
theorem ended_of_hasEnded {g : Group} (started : g.timer ≠ .unstarted) (h : g.hasEnded = true) :
    g.flushes = [] ∧ g.timer = .ended := by
  rw [Group.hasEnded, Bool.and_eq_true, List.isEmpty_iff] at h
  refine ⟨h.1, ?_⟩
  cases ht : g.timer with
  | unstarted => exact absurd ht started
  | armed due => simp [ht] at h
  | ended => rfl

/-! ## Groups that are found empty -/

/-- Whether the sweep that is under way after some events has looked through the place of a group
and found it empty. -/
def FoundEmpty (e₀ : Engine) (events : List Event) (id : RouteId) (fp : Fingerprint)
    (serial : Nat) : Prop :=
  ∃ before after, events = before ++ .step .stepSweep :: after ∧
    (e₀.run before).scanned? = some id ∧
    (∃ g, (e₀.run before).groups.find? id fp = some g ∧ g.serial = serial ∧ g.isEmpty = true) ∧
    (e₀.run before).AtSweep (.step .stepSweep :: after)

theorem FoundEmpty.concat {e₀ : Engine} {events : List Event} {id : RouteId} {fp : Fingerprint}
    {serial : Nat} (h : FoundEmpty e₀ events id fp serial)
    (hs : (e₀.run events).sweep?.isSome = true) (x : Event) :
    FoundEmpty e₀ (events ++ [x]) id fp serial := by
  obtain ⟨before, after, rfl, hscanned, hg, hat⟩ := h
  refine ⟨before, after ++ [x], by simp, hscanned, hg, ?_⟩
  rw [run_append] at hs
  exact atSweep_concat.2 ⟨hat, hs⟩

/-- What a sweep has found, and what it has taken out, it found empty and is empty still. -/
structure Emptied (e₀ : Engine) (events : List Event) : Prop where
  found : ∀ s, (e₀.run events).sweep? = some s → ∀ id fp, (id, fp) ∈ s.found →
    ∀ g, (e₀.run events).groups.find? id fp = some g →
      g.isEmpty = true ∧ FoundEmpty e₀ events id fp g.serial
  leaving : ∀ g, (e₀.run events).leaving? = some g →
    g.isEmpty = true ∧ FoundEmpty e₀ events g.route.id g.fingerprint g.serial

theorem leaving?_eq_some {g : Group} :
    e.leaving? = some g ↔ ∃ s, e.sweep? = some s ∧ s.leaving = some g :=
  Option.bind_eq_some_iff

/-- A step of an engine that is at a sweep keeps what the sweep has found and taken out empty. -/
theorem Emptied.step {e₀ : Engine} {events : List Event} (hk : (e₀.run events).groups.Keyed)
    (h : Emptied e₀ events) (hs : (e₀.run events).sweep?.isSome = true) (s : Step) :
    Emptied e₀ (events ++ [.step s]) := by
  refine ⟨?_, ?_⟩ <;> rw [run_concat]
  · intro sw' hsw' id fp hfound g' hg'
    obtain ⟨g, hg, rfl⟩ := find?_of_step hg'
    rw [(moved_movedBy _ s g).carried.serial_eq]
    rcases found_step hsw' hfound with ⟨sw, hsw, hold⟩ | ⟨rfl, hscanned, g₀, hg₀, hempty⟩
    · obtain ⟨hempty, hfe⟩ := h.found sw hsw id fp hold g hg
      exact ⟨(moved_movedBy _ s g).isEmpty hempty, hfe.concat hs _⟩
    · obtain rfl : g₀ = g := Option.some.inj (hg₀.symm.trans hg)
      exact ⟨hempty, events, [], rfl, hscanned, ⟨g₀, hg, rfl, hempty⟩, hs, trivial⟩
  · intro g' hg'
    rcases moved_leaving hg' with ⟨g, hg, hm⟩ | ⟨id, fp, g, hcleared, hg, rfl, rfl⟩
    · obtain ⟨hempty, hfe⟩ := h.leaving g hg
      have hp := hm.carried.persists
      rw [hp.route, Group.fingerprint, hp.labels, hp.serial]
      exact ⟨hm.isEmpty hempty, hfe.concat hs _⟩
    · obtain ⟨sw, hsw, hfound⟩ := found_of_clearedBy hcleared
      obtain ⟨rfl, rfl⟩ := hk id fp g hg
      obtain ⟨hempty, hfe⟩ := h.found sw hsw _ _ hfound g hg
      exact ⟨hempty, hfe.concat hs _⟩

theorem Emptied.react {e₀ : Engine} {events : List Event} (hk : (e₀.run events).groups.Keyed)
    (h : Emptied e₀ events) (x : Event) : Emptied e₀ (events ++ [x]) := by
  by_cases hs : (e₀.run events).sweep?.isSome = true
  · rcases step_or_idle hs x with ⟨s, rfl⟩ | ⟨hidle, -⟩
    · exact h.step hk hs s
    · refine ⟨?_, ?_⟩ <;> rw [run_concat, hidle]
      · intro sw hsw id fp hfound g hg
        exact (h.found sw hsw id fp hfound g hg).imp_right fun hfe => hfe.concat hs x
      · intro g hg
        exact (h.leaving g hg).imp_right fun hfe => hfe.concat hs x
  · -- a sweep that starts now has found nothing
    rw [Bool.not_eq_true, Option.isSome_eq_false_iff, Option.isNone_iff_eq_none] at hs
    refine ⟨?_, ?_⟩ <;> rw [run_concat]
    · intro sw hsw id fp hfound
      simp [(sweep_started hs hsw).1] at hfound
    · intro g hg
      obtain ⟨sw, hsw, hleaving⟩ := leaving?_eq_some.1 hg
      simp [(sweep_started hs hsw).2] at hleaving

/-! ## Places that a sweep has looked through -/

/-- Looking through a route takes it from those ahead, and finds the groups there that are empty. -/
theorem step_of_scanned {id : RouteId} (h : e.scanned? = some id) :
    ∃ routes, e.sweep? = some { routes := id :: routes } ∧
      (e.step .stepSweep).groups = e.groups ∧
      (e.step .stepSweep).sweep? =
        some { routes, found := (e.groups.emptyUnder id).map fun fp => (id, fp) } := by
  obtain ⟨⟨routes, found, leaving⟩, hsw, hscanned⟩ := Option.bind_eq_some_iff.1 h
  obtain ⟨loop, on, sweeping⟩ := Option.bind_eq_some_iff.1 hsw
  unfold Sweep.scanned? at hscanned
  split at hscanned
  · next id' routes hleaving hfound hroutes =>
    cases hscanned
    cases hleaving
    cases hfound
    cases hroutes
    refine ⟨routes, hsw, ?_⟩
    have hbusy : Sweep.isDone { routes := id :: routes } = false := rfl
    simp only [step, stepSweep, on, sweeping, hbusy]
    exact ⟨rfl, rfl⟩
  · cases hscanned

/-- Whether a sweep that is under way has looked through a route and leaves a place of it alone. -/
def Passed (e : Engine) (id : RouteId) (fp : Fingerprint) : Prop :=
  ∀ s, e.sweep? = some s → id ∉ s.routes ∧ (id, fp) ∉ s.found

/-- Whether a place is without a group, or has one that the sweep under way has found empty. -/
def Doomed (e : Engine) (id : RouteId) (fp : Fingerprint) : Prop :=
  e.groups.find? id fp = none ∨ ∃ s, e.sweep? = some s ∧ (id, fp) ∈ s.found

section Place

variable {id : RouteId} {fp : Fingerprint} {g : Group}

/-- A sweep that looks through a route passes the groups that hold an alert. -/
theorem passed_of_scanned (ht : Tidy e) (h : e.scanned? = some id)
    (hg : e.groups.find? id fp = some g) (hfull : g.isEmpty = false) :
    Passed (e.step .stepSweep) id fp := by
  obtain ⟨routes, hsw, -, hstep⟩ := step_of_scanned h
  intro s hs
  rw [hstep] at hs
  cases hs
  refine ⟨(List.nodup_cons.1 (ht.sweeping _ hsw).nodup).1, fun hfound => ?_⟩
  obtain ⟨fp', hfp', heq⟩ := List.mem_map.1 hfound
  cases heq
  obtain ⟨g', hg', hempty⟩ := GroupMap.mem_emptyUnder.1 hfp'
  obtain rfl : g = g' := Option.some.inj (hg.symm.trans hg')
  rw [hfull] at hempty
  cases hempty

/-- It finds the others. -/
theorem doomed_of_scanned (h : e.scanned? = some id) (hg : e.groups.find? id fp = some g)
    (hempty : g.isEmpty = true) : Doomed (e.step .stepSweep) id fp := by
  obtain ⟨routes, -, -, hstep⟩ := step_of_scanned h
  refine .inr ⟨_, hstep, List.mem_map.2 ⟨fp, ?_, rfl⟩⟩
  exact GroupMap.mem_emptyUnder.2 ⟨g, hg, hempty⟩

theorem routes_step {s : Sweep} {m : GroupMap} (h : id ∈ (s.step m).1.routes) : id ∈ s.routes := by
  obtain ⟨routes, found, _ | g⟩ := s
  · rcases found with _ | ⟨place, found⟩
    · rcases routes with _ | ⟨route, routes⟩
      · exact h
      · exact List.mem_cons_of_mem _ h
    · exact h
  · simp only [Sweep.step] at h
    split at h <;> exact h

/-- What a sweep has found stays found until it is taken out. -/
theorem mem_found_step {s : Sweep} {m : GroupMap} (h : (id, fp) ∈ s.found)
    (hswept : s.swept? ≠ some (id, fp)) : (id, fp) ∈ (s.step m).1.found := by
  obtain ⟨routes, found, _ | g⟩ := s
  · rcases found with _ | ⟨place, found⟩
    · cases h
    · rcases List.mem_cons.1 h with rfl | h
      · exact absurd rfl hswept
      · exact h
  · simp only [Sweep.step]
    split <;> exact h

theorem Passed.step (hs : e.sweep?.isSome = true) (h : Passed e id fp) (s : Step) :
    Passed (e.step s) id fp := by
  intro sw' hsw'
  refine ⟨fun hroute => ?_, fun hfound => ?_⟩
  · have hst := stepped e s
    generalize e.step s = e' at hst hsw'
    cases hst with
    | moved serial s =>
      rw [sweep?_mapGroups, Option.map_eq_some_iff] at hsw'
      obtain ⟨sw, hsw, rfl⟩ := hsw'
      exact (h sw hsw).1 hroute
    | idle => exact (h sw' hsw').1 hroute
    | started tick loop on free => simp [sweep?, on, free] at hs
    | swept loop sw on sweeping =>
      cases hsw'
      have hsw : e.sweep? = some sw := sweep?_of_loop on sweeping
      exact (h sw hsw).1 (routes_step hroute)
    | cleared => cases hsw'
    | stopped run =>
      have hsw' : (e.cancelRun run).sweep? = some sw' := hsw'
      rw [sweep?_cancelRun] at hsw'
      exact (h sw' hsw').1 hroute
  · rcases found_step hsw' hfound with ⟨sw, hsw, hold⟩ | ⟨-, hscanned, -⟩
    · exact (h sw hsw).2 hold
    · -- a route that is looked through lay ahead
      obtain ⟨routes, hsw, -⟩ := step_of_scanned hscanned
      exact (h _ hsw).1 List.mem_cons_self

theorem Passed.not_cleared (h : Passed e id fp) (s : Step) : e.clearedBy? s ≠ some (id, fp) := by
  intro hcleared
  obtain ⟨sw, hsw, hfound⟩ := found_of_clearedBy hcleared
  exact (h sw hsw).2 hfound

theorem Doomed.step (hs : e.sweep?.isSome = true) (h : Doomed e id fp) (s : Step) :
    Doomed (e.step s) id fp := by
  by_cases hcleared : e.clearedBy? s = some (id, fp)
  · exact .inl (by rw [find?_step, if_pos hcleared])
  rcases h with hnone | ⟨sw, hsw, hfound⟩
  · exact .inl (by rw [find?_step, hnone, Option.map_none, ite_self])
  · have hst := stepped e s
    generalize e.step s = e' at hst
    cases hst with
    | moved serial s =>
      refine .inr ⟨{ sw with leaving := sw.leaving.map (e.movedBy (.group serial s)) }, ?_, hfound⟩
      rw [sweep?_mapGroups, hsw, Option.map_some]
    | idle => exact .inr ⟨sw, hsw, hfound⟩
    | started tick loop on free => simp [sweep?, on, free] at hs
    | swept loop sw' on sweeping =>
      have hsw' : e.sweep? = some sw' := sweep?_of_loop on sweeping
      obtain rfl : sw = sw' := Option.some.inj (hsw.symm.trans hsw')
      refine .inr ⟨_, rfl, mem_found_step hfound fun hswept => hcleared ?_⟩
      rw [clearedBy?, hsw, Option.bind_some, hswept]
    | cleared loop sw' on sweeping done =>
      -- a sweep that is done has nothing left that it found
      have hsw' : e.sweep? = some sw' := sweep?_of_loop on sweeping
      obtain rfl : sw = sw' := Option.some.inj (hsw.symm.trans hsw')
      simp only [Sweep.isDone, Bool.and_eq_true, List.isEmpty_iff] at done
      rw [done.1.2] at hfound
      cases hfound
    | stopped run => exact .inr ⟨sw, (sweep?_cancelRun e run).trans hsw, hfound⟩

end Place

/-! ## Runs -/

section Runs

variable (tree : Route) (settings : EngineSettings) (before : List Event)

theorem tidy_run : Tidy (Engine.run { tree, settings } before) :=
  (Tidy.start tree settings).run before

theorem emptied_run : Emptied { tree, settings } before := by
  induction before using List.reverseRecOn with
  | nil => exact ⟨by simp [run, sweep?], by simp [run, leaving?, sweep?]⟩
  | append_singleton events x ih => exact ih.react (numbered_run tree settings events).keyed x

/-- The timer of every group was started. -/
theorem started_run {g : Group} (hg : g ∈ (Engine.run { tree, settings } before).allGroups) :
    g.timer ≠ .unstarted := by
  induction before using List.reverseRecOn generalizing g with
  | nil => cases (hg : g ∈ [])
  | append_singleton events x ih =>
    rw [run_concat] at hg
    have hk := (numbered_run tree settings events).keyed
    have hx := reacted (Engine.run { tree, settings } events) x
    generalize (Engine.run { tree, settings } events).react x = e' at hx hg
    cases hx with
    | idle => exact ih hg
    | begun => exact ih (mem_allGroups_begin hg)
    | finished => exact ih (mem_allGroups_endLoop hg)
    | sorted loop on free m a r =>
      rcases mem_allGroups_sort hk hg with rfl | hold
      · show (Engine.taker _ m loop.isCancelled a.labels r).timer ≠ _
        unfold taker
        cases hf : (Engine.run { tree, settings } events).groups.find? r.id
            (r.grouping a.labels).fingerprint with
        | some g => exact ih (mem_allGroups.2 (.inl ⟨_, _, hf⟩))
        | none =>
          simp only [Option.getD_none, newGroup, Group.start]
          split <;> simp
      · exact ih hold
    | stepped s =>
      obtain ⟨g, hmem, hm⟩ := moved_step hg
      exact hm.carried.persists.started (ih hmem)

/-- What goes from the map goes when a run begins, or because the sweep found it empty. -/
theorem taken_out {x : Event} {id : RouteId} {fp : Fingerprint} {g : Group}
    (hg : (Engine.run { tree, settings } before).groups.find? id fp = some g)
    (hnone : ((Engine.run { tree, settings } before).react x).groups.find? id fp = none) :
    (∃ tick, x = .begin tick ∧ (Engine.run { tree, settings } before).mainLoop = none) ∨
      (x = .step .stepSweep ∧ g.isEmpty = true ∧
        FoundEmpty { tree, settings } before id fp g.serial ∧
        ((Engine.run { tree, settings } before).react x).leaving? = some g.cancel) := by
  have hk := (numbered_run tree settings before).keyed
  have hemptied := emptied_run tree settings before
  generalize hrun : Engine.run { tree, settings } before = e at *
  have hx := reacted e x
  generalize hreact : e.react x = e' at hx hnone ⊢
  cases hx with
  | idle | finished => exact absurd (hg.symm.trans hnone) (by simp)
  | begun tick off => exact .inl ⟨tick, rfl, off⟩
  | sorted loop on free m a r =>
    rw [find?_sort hk] at hnone
    split at hnone
    · cases hnone
    · exact absurd (hg.symm.trans hnone) (by simp)
  | stepped s =>
    right
    rw [find?_step, hg] at hnone
    split at hnone
    · next hcleared =>
      obtain ⟨sw, hsw, hfound⟩ := found_of_clearedBy hcleared
      obtain ⟨hempty, hfe⟩ := hemptied.found sw (hrun ▸ hsw) id fp hfound g (hrun ▸ hg)
      obtain ⟨rfl, hleaving⟩ := leaving_of_clearedBy hcleared hg
      exact ⟨rfl, hempty, hfe, hleaving⟩
    · cases hnone

/-- A group that is gone for good was found empty by the sweep, and has ended. -/
theorem let_go {x : Event} {n : Nat} (hmem : n ∈ (Engine.run { tree, settings } before).serials)
    (hgone : n ∉ ((Engine.run { tree, settings } before).react x).serials) :
    ∃ g, (Engine.run { tree, settings } before).leaving? = some g ∧ g.serial = n ∧
      g.isEmpty = true ∧ g.timer = .ended ∧ g.flushes = [] ∧
      FoundEmpty { tree, settings } before g.route.id g.fingerprint n := by
  cases turnover_react (numbered_run tree settings before).keyed x with
  | kept perm => exact absurd (perm.mem_iff.2 hmem) hgone
  | grown perm => exact absurd (perm.mem_iff.2 (List.mem_cons_of_mem _ hmem)) hgone
  | shrunk g leaving ended perm =>
    rcases List.mem_cons.1 (perm.mem_iff.1 hmem) with rfl | hstays
    · obtain ⟨hempty, hfe⟩ := (emptied_run tree settings before).leaving g leaving
      have hstarted := started_run tree settings before (mem_allGroups.2 (.inr (.inr leaving)))
      obtain ⟨hflushes, htimer⟩ := ended_of_hasEnded hstarted ended
      exact ⟨g, leaving, rfl, hempty, htimer, hflushes, hfe⟩
    · exact absurd hstays hgone

section Scanned

variable {id : RouteId} {fp : Fingerprint} {g : Group}
  (hscanned : (Engine.run { tree, settings } before).scanned? = some id)
  (hg : (Engine.run { tree, settings } before).groups.find? id fp = some g)
include hscanned hg

/-- **A group that holds an alert when its route is looked through stays in the map** as long as the
sweep lasts, and only its own deliveries change what it holds. -/
theorem spares_run (hfull : g.isEmpty = false) {after : List Event}
    (hat : (Engine.run { tree, settings } before).AtSweep (.step .stepSweep :: after)) :
    let e := Engine.run { tree, settings } before
    Passed (e.run (.step .stepSweep :: after)) id fp ∧
      ∃ g', (e.run (.step .stepSweep :: after)).groups.find? id fp = some g' ∧
        g.Spares (history { tree, settings } g.serial before)
          (e.history g.serial (.step .stepSweep :: after)) g' := by
  intro e
  induction after using List.reverseRecOn with
  | nil =>
    obtain ⟨routes, -, hgroups, -⟩ := step_of_scanned hscanned
    refine ⟨passed_of_scanned (tidy_run tree settings before) hscanned hg hfull, g, ?_, .refl _ g⟩
    exact (congrArg (·.find? id fp) hgroups).trans hg
  | append_singleton after x ih =>
    rw [← List.cons_append] at hat ⊢
    obtain ⟨hbefore, hs⟩ := atSweep_concat.1 hat
    obtain ⟨hpassed, g', hg', hspares⟩ := ih hbefore
    rw [run_concat, history_concat]
    rcases step_or_idle hs x with ⟨s, rfl⟩ | ⟨hidle, hnote⟩
    · refine ⟨hpassed.step hs s, (e.run (.step .stepSweep :: after)).movedBy s g', ?_, ?_⟩
      · rw [react, find?_step, if_neg (hpassed.not_cleared s), hg', Option.map_some]
      · have hn : Numbered (e.run (.step .stepSweep :: after)) :=
          (numbered_run tree settings before).run _
        have hmem : g' ∈ (e.run (.step .stepSweep :: after)).allGroups :=
          mem_allGroups.2 (.inl ⟨_, _, hg'⟩)
        rw [← hspares.persists.serial]
        rcases (moved_movedBy _ s g').noted hn hmem with ⟨hsame, hnote⟩ | ⟨ev, hreact, hnote, hev⟩
        · rw [hsame, hnote, hspares.persists.serial, Option.toList_none, List.append_nil]
          exact hspares
        · have hlived : g'.Lived (history { tree, settings } g.serial before ++
              e.history g.serial (.step .stepSweep :: after)) := by
            have hrun := run_append { tree, settings } before (.step .stepSweep :: after)
            have := lived_run tree settings (before ++ .step .stepSweep :: after) (hrun ▸ hmem)
            rwa [history_append, hspares.persists.serial] at this
          rw [hreact, hnote, hspares.persists.serial]
          exact hspares.change hlived.ledger hlived.faithful (Group.persists_react g' ev)
            (Group.change_react g' ev) hev
    · rw [hidle, hnote, Option.toList_none, List.append_nil]
      exact ⟨hpassed, g', hg', hspares⟩

/-- A group that is found empty is out of the map when the sweep is over. -/
theorem doomed_run (hempty : g.isEmpty = true) {after : List Event}
    (hat : (Engine.run { tree, settings } before).AtSweep (.step .stepSweep :: after)) :
    Doomed ((Engine.run { tree, settings } before).run (.step .stepSweep :: after)) id fp := by
  induction after using List.reverseRecOn with
  | nil => exact doomed_of_scanned hscanned hg hempty
  | append_singleton after x ih =>
    rw [← List.cons_append] at hat ⊢
    obtain ⟨hbefore, hs⟩ := atSweep_concat.1 hat
    rw [run_concat]
    rcases step_or_idle hs x with ⟨s, rfl⟩ | ⟨hidle, -⟩
    · exact (ih hbefore).step hs s
    · rw [hidle]
      exact ih hbefore

end Scanned

end Runs

/-- **A sweep removes exactly what it may**, at any time of any run, whatever the groups do
meanwhile. A group goes from the map when a run begins, or it is taken out by a sweep that looked
through its route, found it empty and is under way still; it is empty then. It is gone for good only
when its timer and its flushes have ended, and is empty still. A group that holds an alert when its
route is looked through stays where it is, with its revision counter and with what its own
deliveries leave of its alerts; the others are out of the map when the sweep is over. Between
sweeps no route is without groups. An alert that finds no group at its place gets a new one, with a
number that no group had; it has sent nothing, and its timer first fires once its own group wait has
passed, unless an alert of its own has woken it. -/
theorem sweep_removes_empty (tree : Route) (settings : EngineSettings) (before : List Event) :
    let e₀ : Engine := { tree, settings }
    let e := e₀.run before
    (∀ x id fp g, e.groups.find? id fp = some g → (e.react x).groups.find? id fp = none →
      (∃ tick, x = .begin tick ∧ e.mainLoop = none) ∨
        (x = .step .stepSweep ∧ g.isEmpty = true ∧ FoundEmpty e₀ before id fp g.serial ∧
          (e.react x).leaving? = some g.cancel)) ∧
    (∀ x, ∀ n ∈ e.serials, n ∉ (e.react x).serials → ∃ g, e.leaving? = some g ∧ g.serial = n ∧
      g.isEmpty = true ∧ g.timer = .ended ∧ g.flushes = [] ∧
      FoundEmpty e₀ before g.route.id g.fingerprint n) ∧
    (∀ id fp g, e.scanned? = some id → e.groups.find? id fp = some g →
      ∀ after, e.AtSweep (.step .stepSweep :: after) →
        let e' := e.run (.step .stepSweep :: after)
        (g.isEmpty = false → ∃ g', e'.groups.find? id fp = some g' ∧
          g.Spares (e₀.history g.serial before)
            (e.history g.serial (.step .stepSweep :: after)) g') ∧
        (g.isEmpty = true → e'.sweep? = none → e'.groups.find? id fp = none)) ∧
    (e.sweep? = none → ∀ id groups, e.groups.get? id = some groups → groups.isEmpty = false) ∧
    ∀ loop, e.mainLoop = some loop → loop.sweep = none → ∀ (m : Moment) (a : Alert) (r : Route),
      e.groups.find? r.id (r.grouping a.labels).fingerprint = none →
        let e' := e.react (.sort m a r)
        (∀ earlier, earlier <+: before → e.created ∉ (e₀.run earlier).serials) ∧
        (∃ g, e'.groups.find? r.id (r.grouping a.labels).fingerprint = some g ∧
          g.serial = e.created ∧ g.labels = r.grouping a.labels ∧ g.route = r ∧ g.IsNew m a) ∧
        ∀ after y now, (e'.run after).firing? y = some ⟨e.created, 0, now⟩ →
          ∃ m', y = .step (.group e.created (.fire m')) ∧
            (m.tick + r.options.groupWait.ticks ≤ m'.tick ∨
              Urged e e.created (.sort m a r :: after)) := by
  intro e₀ e
  have hn : Numbered e := numbered_run tree settings before
  refine ⟨?_, ?_, ?_, (tidy_run tree settings before).free, ?_⟩
  · intro x id fp g hg hnone
    exact taken_out tree settings before hg hnone
  · intro x n hmem hgone
    exact let_go tree settings before hmem hgone
  · intro id fp g hscanned hg after hat
    refine ⟨fun hfull => (spares_run tree settings before hscanned hg hfull hat).2,
      fun hempty hover => ?_⟩
    rcases doomed_run tree settings before hscanned hg hempty hat with hnone | ⟨sw, hsw, -⟩
    · exact hnone
    · exact absurd (hover.symm.trans hsw) (by simp)
  · intro loop on free m a r hnone
    refine ⟨fun earlier hprefix hmem => ?_, find?_sort_new hn on free hnone,
      fun after y now => le_first_firing hn on free hnone after⟩
    obtain ⟨rest, rfl⟩ := hprefix
    have hearlier := numbered_run tree settings earlier
    have hle := created_le_run hearlier.keyed rest
    rw [← run_append] at hle
    exact Nat.lt_irrefl _ (Nat.lt_of_lt_of_le (hearlier.bound _ hmem) hle)

/-- A resolved alert is notified, the sweep takes its group out, and the alert comes again. -/
def renewedRun : List Event :=
  let route := Group.timedRoute (.ofSecs 30) (.ofSecs 300)
  let alert := { Group.alertFrom "A" 0 with endsAt := some ⟨10, 0⟩ }
  [.begin 0, .sort (Group.secondsIn 0) alert route,
    .step (.group 0 (.fire (Group.secondsIn 30))), .step (.group 0 (.beginFlush 0)),
    .step (.group 0 (.endFlush 0 true)), .step (.startSweep 31000), .step .stepSweep,
    .step .stepSweep, .step (.group 0 .endTimer), .step .stepSweep, .step .stepSweep,
    .sort (Group.secondsIn 40) alert route]

example :
    let e := Engine.run { tree := Group.timedRoute (.ofSecs 30) (.ofSecs 300) } renewedRun
    e.serials = [1] ∧ ∀ g ∈ e.allGroups, g.holdings.hasSent = false := by
  decide +kernel

end AlertFlow.Engine
