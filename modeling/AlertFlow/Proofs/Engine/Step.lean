import AlertFlow.Engine
import AlertFlow.Proofs.Group.Keeping
import AlertFlow.Proofs.Group.Map

/-!
Steps of the engine. What happens in the engine apart from taking up alerts is a step: a step of one
of its groups, the sweep, or a call to stop. Seen at one place of the map a step does one of two
things: it has the group there go on by itself, or it sweeps the group away.
-/
namespace AlertFlow

namespace Sweep

/-- The place of the group that the next step of a sweep takes out. -/
def swept? (s : Sweep) : Option (RouteId × Fingerprint) :=
  match s.leaving, s.found with
  | none, place :: _ => some place
  | _, _ => none

/-- The route that the next step of a sweep looks through. -/
def scanned? (s : Sweep) : Option RouteId :=
  match s.leaving, s.found, s.routes with
  | none, [], id :: _ => some id
  | _, _, _ => none

theorem find?_step (s : Sweep) (m : GroupMap) (id : RouteId) (fp : Fingerprint) :
    (s.step m).2.find? id fp = if s.swept? = some (id, fp) then none else m.find? id fp := by
  rcases s with ⟨routes, found, _ | g⟩
  · rcases found with _ | ⟨place, found⟩
    · cases routes <;> rfl
    · simp only [step, swept?, GroupMap.find?_remove, Option.some.injEq, Prod.ext_iff]
  · simp only [step, swept?]
    split <;> rfl

/-- A step of a sweep finds only groups that hold nothing, of the route that it looks through. -/
theorem found_step {s : Sweep} {m : GroupMap} {id : RouteId} {fp : Fingerprint}
    (h : (id, fp) ∈ (s.step m).1.found) :
    (id, fp) ∈ s.found ∨
      (s.scanned? = some id ∧ ∃ g, m.find? id fp = some g ∧ g.isEmpty = true) := by
  rcases s with ⟨routes, found, _ | g⟩
  · rcases found with _ | ⟨place, found⟩
    · rcases routes with _ | ⟨route, routes⟩
      · exact .inl h
      · obtain ⟨fp', hfp, heq⟩ := List.mem_map.1 h
        cases heq
        exact .inr ⟨rfl, GroupMap.mem_emptyUnder.1 hfp⟩
    · exact .inl (List.mem_cons_of_mem _ h)
  · simp only [step] at h
    split at h <;> exact .inl h

end Sweep

namespace Engine

/-- A loop that comes on is that of the run that begins, and is at no sweep. -/
theorem eq_of_mainLoop_begin {e : Engine} {tick : Nat} {loop : MainLoop}
    (h : (e.begin tick).mainLoop = some loop) :
    loop = { run := e.runs + 1, nextSweep := tick + e.settings.sweepInterval.ticks } := by
  simp only [begin] at h
  split at h
  · cases h
  · exact (Option.some.inj h).symm

@[simp] theorem sweep?_begin (e : Engine) (tick : Nat) : (e.begin tick).sweep? = none := by
  rw [sweep?, Option.bind_eq_none_iff]
  intro loop h
  rw [eq_of_mainLoop_begin h]

@[simp] theorem leaving?_begin (e : Engine) (tick : Nat) : (e.begin tick).leaving? = none := by
  rw [leaving?, sweep?_begin, Option.bind_none]

/-- The sweep under way is that of the main loop. -/
theorem sweep?_of_loop {e : Engine} {loop : MainLoop} (on : e.mainLoop = some loop)
    {sweep : Option Sweep} (h : loop.sweep = sweep) : e.sweep? = sweep := by
  rw [sweep?, on, Option.bind_some, h]

/-- What happens in the engine apart from taking up alerts. -/
inductive Step where
  /-- The group of this serial number takes a step. -/
  | group (serial : Nat) (s : Group.Step)
  | startSweep (tick : Nat)
  | stepSweep
  | stop

/-- Takes a step. -/
def step (e : Engine) : Step → Engine
  | .group serial s => e.mapGroups fun g => if g.serial = serial then g.step s else g
  | .startSweep tick => e.startSweep tick
  | .stepSweep => e.stepSweep
  | .stop => e.stop.2

/-- The wall time of a step that has one. -/
def Step.wall? : Step → Option Instant
  | .group _ s => (Group.Event.step s).wall?
  | _ => none

/-- The place that a step clears. -/
def clearedBy? (e : Engine) : Step → Option (RouteId × Fingerprint)
  | .stepSweep => e.sweep?.bind Sweep.swept?
  | _ => none

/-- The route that the next step of the sweep looks through. -/
def scanned? (e : Engine) : Option RouteId := e.sweep?.bind Sweep.scanned?

/-- How a step has the groups of the map go on. -/
def movedBy (e : Engine) : Step → Group → Group
  | .group serial s, g => if g.serial = serial then g.step s else g
  | .stop, g => if e.registered = some e.groupsRun then g.cancel else g
  | _, g => g

/-- What a step makes of the engine. A group may take a step, a sweep may start, go on or end, and a
run may be stopped; otherwise nothing changes. -/
inductive Stepped (e : Engine) : Step → Engine → Prop where
  | moved (serial : Nat) (s : Group.Step) :
      Stepped e (.group serial s) (e.mapGroups (e.movedBy (.group serial s)))
  | idle (s : Step) (unregistered : s = .stop → e.registered = none) : Stepped e s e
  | started (tick : Nat) (loop : MainLoop) (on : e.mainLoop = some loop)
      (free : loop.sweep = none) (due : loop.nextSweep ≤ tick) :
      Stepped e (.startSweep tick) { e with
        mainLoop := some { loop with
          sweep := some (Sweep.start e.groups)
          nextSweep := tick + e.settings.sweepInterval.ticks } }
  | swept (loop : MainLoop) (s : Sweep) (on : e.mainLoop = some loop)
      (sweeping : loop.sweep = some s) :
      Stepped e .stepSweep { e with
        groups := (s.step e.groups).2
        mainLoop := some { loop with sweep := some (s.step e.groups).1 } }
  | cleared (loop : MainLoop) (s : Sweep) (on : e.mainLoop = some loop)
      (sweeping : loop.sweep = some s) (done : s.isDone = true) :
      Stepped e .stepSweep { e with
        groups := e.groups.withoutEmptyRoutes
        mainLoop := some { loop with sweep := none } }
  | stopped (run : Nat) (registered : e.registered = some run) :
      Stepped e .stop { e.cancelRun run with registered := none }

theorem stepped (e : Engine) (s : Step) : Stepped e s (e.step s) := by
  cases s with
  | group serial s => exact .moved serial s
  | startSweep tick =>
    simp only [step, startSweep]
    split
    · next loop on =>
      split
      · next h => exact .started tick loop on (Option.isNone_iff_eq_none.1 h.1) h.2
      · exact .idle _ (by simp)
    · exact .idle _ (by simp)
  | stepSweep =>
    simp only [step, stepSweep]
    split
    · next loop on =>
      split
      · next s sweeping =>
        split
        · next done => exact .cleared loop s on sweeping done
        · exact .swept loop s on sweeping
      · exact .idle _ (by simp)
    · exact .idle _ (by simp)
  | stop =>
    simp only [step, stop]
    split
    · next run registered => exact .stopped run registered
    · next unregistered => exact .idle _ fun _ => unregistered

@[simp] theorem tree_step (e : Engine) (s : Step) : (e.step s).tree = e.tree := by
  have h := stepped e s
  generalize e.step s = e' at h
  cases h <;> rfl

theorem groups_startSweep (e : Engine) (tick : Nat) : (e.startSweep tick).groups = e.groups := by
  simp only [startSweep]
  split
  · split <;> rfl
  · rfl

theorem find?_stepSweep (e : Engine) (id : RouteId) (fp : Fingerprint) :
    e.stepSweep.groups.find? id fp =
      if e.sweep?.bind Sweep.swept? = some (id, fp) then none else e.groups.find? id fp := by
  unfold stepSweep sweep?
  rcases e.mainLoop with _ | ⟨run, isCancelled, nextSweep, _ | s⟩
  · rfl
  · rfl
  · simp only [Option.bind_some]
    split
    · next hdone =>
      have hfound : s.found = [] := by
        simp only [Sweep.isDone, Bool.and_eq_true, List.isEmpty_iff] at hdone
        exact hdone.1.2
      -- a sweep that is done takes no group out, only routes without groups
      have hnone : ¬ s.swept? = some (id, fp) := by
        unfold Sweep.swept?
        rw [hfound]
        cases s.leaving <;> simp
      rw [if_neg hnone]
      exact GroupMap.find?_withoutEmptyRoutes e.groups id fp
    · exact Sweep.find?_step s e.groups id fp

/-- **What a step does at a place of the map**: it clears it, or moves the group there. -/
theorem find?_step (e : Engine) (s : Step) (id : RouteId) (fp : Fingerprint) :
    (e.step s).groups.find? id fp =
      if e.clearedBy? s = some (id, fp) then none
      else (e.groups.find? id fp).map (e.movedBy s) := by
  -- for the steps that leave the groups as they are
  have stays : ∀ {x : Option Group} {f : Group → Group}, (∀ g, f g = g) → x = x.map f := by
    intro x f hf
    rw [show f = fun g => g from funext hf, Option.map_id']
  cases s with
  | group serial s => exact GroupMap.find?_mapGroups e.groups _ id fp
  | startSweep tick =>
    rw [step, groups_startSweep]
    exact stays fun _ => rfl
  | stepSweep =>
    rw [step, find?_stepSweep, clearedBy?]
    congr 1
    exact stays fun _ => rfl
  | stop =>
    have hmoved : ∀ g, e.movedBy .stop g =
        if e.registered = some e.groupsRun then g.cancel else g := fun _ => rfl
    simp only [step, stop, clearedBy?]
    rcases hr : e.registered with _ | run
    · exact stays fun g => by simp [hmoved, hr]
    · by_cases hrun : run = e.groupsRun
      · have : e.movedBy .stop = Group.cancel := funext fun g => by simp [hmoved, hr, hrun]
        simp [cancelRun, hrun, this, GroupMap.find?_mapGroups]
      · have hrun' : ¬ e.groupsRun = run := fun h => hrun h.symm
        simpa [cancelRun, hrun'] using stays fun g => by simp [hmoved, hr, hrun]

/-- What a step clears away had been found by the sweep. -/
theorem found_of_clearedBy {e : Engine} {s : Step} {id : RouteId} {fp : Fingerprint}
    (h : e.clearedBy? s = some (id, fp)) : ∃ sw, e.sweep? = some sw ∧ (id, fp) ∈ sw.found := by
  cases s with
  | stepSweep =>
    obtain ⟨⟨routes, found, leaving⟩, hsw, hswept⟩ := Option.bind_eq_some_iff.1 h
    refine ⟨_, hsw, ?_⟩
    cases leaving with
    | some g => cases hswept
    | none =>
      cases found with
      | nil => cases hswept
      | cons place found =>
        cases hswept
        exact List.mem_cons_self
  | group serial s => cases h
  | startSweep tick => cases h
  | stop => cases h

theorem sweep?_mapGroups (e : Engine) (f : Group → Group) :
    (e.mapGroups f).sweep? = e.sweep?.map fun s => { s with leaving := s.leaving.map f } := by
  simp only [mapGroups, mapLeaving, mapSweep, sweep?]
  cases e.mainLoop <;> rfl

theorem sweep?_cancelRun (e : Engine) (run : Nat) : (e.cancelRun run).sweep? = e.sweep? := by
  simp only [cancelRun, sweep?]
  cases e.mainLoop with
  | none => rfl
  | some loop =>
    rw [Option.map_some, Option.bind_some, Option.bind_some]
    split <;> rfl

/-- What a sweep has found after a step it had found before, or it holds nothing. -/
theorem found_step {e : Engine} {s : Step} {sw' : Sweep} (h : (e.step s).sweep? = some sw')
    {id : RouteId} {fp : Fingerprint} (hfound : (id, fp) ∈ sw'.found) :
    (∃ sw, e.sweep? = some sw ∧ (id, fp) ∈ sw.found) ∨
      (s = .stepSweep ∧ e.scanned? = some id ∧
        ∃ g, e.groups.find? id fp = some g ∧ g.isEmpty = true) := by
  have hs := stepped e s
  generalize e.step s = e' at h hs
  cases hs with
  | moved serial s =>
    rw [sweep?_mapGroups, Option.map_eq_some_iff] at h
    obtain ⟨sw, hsw, rfl⟩ := h
    exact .inl ⟨sw, hsw, hfound⟩
  | idle => exact .inl ⟨sw', h, hfound⟩
  | started =>
    cases h
    simp [Sweep.start] at hfound
  | swept loop sw on sweeping =>
    cases h
    have hsw : e.sweep? = some sw := sweep?_of_loop on sweeping
    rcases Sweep.found_step hfound with hold | ⟨hscanned, hempty⟩
    · exact .inl ⟨sw, hsw, hold⟩
    · exact .inr ⟨rfl, by rw [scanned?, hsw, Option.bind_some, hscanned], hempty⟩
  | cleared => cases h
  | stopped run => exact .inl ⟨sw', by rwa [← sweep?_cancelRun e run], hfound⟩

/-- Moved by a step, a group stays as it is or reacts to an event, which is no insertion. -/
theorem movedBy_eq (e : Engine) (s : Step) (g : Group) :
    e.movedBy s g = g ∨ ∃ ev, e.movedBy s g = g.react ev ∧ (∀ a, g.note? ev ≠ some (.inserted a)) ∧
      ∀ now, ev.wall? = some now → s.wall? = some now := by
  cases s with
  | group serial s =>
    by_cases hserial : g.serial = serial
    · exact .inr ⟨.step s, if_pos hserial, g.note?_step_ne_inserted s, fun now h => h⟩
    · exact .inl (if_neg hserial)
  | startSweep tick => exact .inl rfl
  | stepSweep => exact .inl rfl
  | stop =>
    by_cases hrun : e.registered = some e.groupsRun
    · exact .inr ⟨.cancel, if_pos hrun, by simp [Group.note?], by simp [Group.Event.wall?]⟩
    · exact .inl (if_neg hrun)

theorem identity_movedBy (e : Engine) (s : Step) (g : Group) :
    (e.movedBy s g).route = g.route ∧ (e.movedBy s g).labels = g.labels := by
  rcases movedBy_eq e s g with h | ⟨ev, h, -, -⟩ <;> simp [h]

/-- A step leaves at a place nothing, or what the group there has become. -/
theorem find?_of_step {e : Engine} {s : Step} {id : RouteId} {fp : Fingerprint} {g' : Group}
    (h : (e.step s).groups.find? id fp = some g') :
    ∃ g, e.groups.find? id fp = some g ∧ g' = e.movedBy s g := by
  rw [find?_step] at h
  split at h
  · cases h
  · obtain ⟨g, hg, rfl⟩ := Option.map_eq_some_iff.1 h
    exact ⟨g, hg, rfl⟩

theorem keyed_step {e : Engine} (hk : e.groups.Keyed) (s : Step) : (e.step s).groups.Keyed := by
  intro id fp g' hg'
  obtain ⟨g, hg, rfl⟩ := find?_of_step hg'
  obtain ⟨hroute, hlabels⟩ := identity_movedBy e s g
  rw [hroute, Group.fingerprint, hlabels]
  exact hk id fp g hg

/-- Of their own accord runs of the main loop neither begin nor end. -/
@[simp] theorem isSome_mainLoop_step (e : Engine) (s : Step) :
    (e.step s).mainLoop.isSome = e.mainLoop.isSome := by
  have h := stepped e s
  generalize e.step s = e' at h
  cases h with
  | moved => simp [mapGroups, mapLeaving, mapSweep]
  | idle => rfl
  | started _ _ on | swept _ _ on | cleared _ _ on => simp [on]
  | stopped => simp [cancelRun]

end Engine

end AlertFlow
