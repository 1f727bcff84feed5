import AlertFlow.Proofs.Engine.Silence

/-!
What calls to stop wait for. The first call after the beginning of a run takes the run that is
registered: it waits until the main loop has ended, and the main loop does nothing from then on.
Calls that come after it find no run to wait for and return at once, even if the main loop, which
has been cancelled by then, is still on.
-/
namespace AlertFlow.Engine

variable {e : Engine} {x : Event} {events : List Event}

/-- Whether the main loop is not on a run, so that a call that waits for the run returns. -/
def isOver (e : Engine) (run : Nat) : Bool := e.mainLoop.all (·.run ≠ run)

/-- Whether an event is the main loop's own: it sorts an alert, is at a sweep, or ends. -/
def Event.isOfLoop : Event → Bool
  | .sort _ _ _ | .finish | .step (.startSweep _) | .step .stepSweep => true
  | _ => false

/-! ## A main loop that has ended -/

theorem react_of_off (off : e.mainLoop = none) (hx : x.isOfLoop = true) : e.react x = e := by
  rcases x with _ | _ | _ | (_ | _ | _ | _)
  case sort => simp only [react, off]
  case finish => simp only [react, off]
  case step.startSweep => simp only [react, step, startSweep, off]
  case step.stepSweep => simp only [react, step, stepSweep, off]
  all_goals cases hx

theorem off_react (off : e.mainLoop = none) (hx : ∀ tick, x ≠ .begin tick) :
    (e.react x).mainLoop = none := by
  have hr := reacted e x
  generalize e.react x = e' at hr
  cases hr with
  | idle => exact off
  | begun tick => exact absurd rfl (hx tick)
  | sorted loop on | finished loop on =>
    rw [off] at on
    cases on
  | stepped s => rw [← Option.not_isSome_iff_eq_none, isSome_mainLoop_step, off]; simp

/-- A main loop that has ended stays so until the next run begins. -/
theorem off_run (off : e.mainLoop = none) (hx : ∀ tick, .begin tick ∉ events) :
    (e.run events).mainLoop = none := by
  refine run_keeps (P := fun e => e.mainLoop = none) ?_ off
  intro e x hmem off
  exact off_react off fun tick heq => hx tick (heq ▸ hmem)

/-! ## The run that a call takes -/

/-- Until the next run begins, the groups of the map belong to the same run. -/
theorem groupsRun_react (hx : ∀ tick, x ≠ .begin tick) :
    (e.react x).groupsRun = e.groupsRun := by
  have hr := reacted e x
  generalize e.react x = e' at hr
  cases hr with
  | idle | finished => rfl
  | begun tick => exact absurd rfl (hx tick)
  | sorted => rw [sort_eq]
  | stepped s =>
    by_cases hs : s = .stop
    · subst hs
      simp only [step, stop]
      split <;> rfl
    · exact (registered_of_step hs).2

theorem groupsRun_run (hx : ∀ tick, .begin tick ∉ events) :
    (e.run events).groupsRun = e.groupsRun := by
  refine run_keeps (P := fun e' => e'.groupsRun = e.groupsRun) ?_ rfl
  intro e x hmem heq
  exact (groupsRun_react fun tick h => hx tick (h ▸ hmem)).trans heq

/-- Until the next run begins, only a call to stop takes the run that is registered. -/
theorem registered_still (hx : ∀ tick, x ≠ .begin tick) (hs : x ≠ .step .stop) :
    (e.react x).registered = e.registered := by
  have hr := reacted e x
  generalize e.react x = e' at hr
  cases hr with
  | idle | finished => rfl
  | begun tick => exact absurd rfl (hx tick)
  | sorted => rw [sort_eq]
  | stepped s => exact (registered_of_step fun heq => hs (heq ▸ rfl)).1

theorem registered_until (hx : ∀ tick, .begin tick ∉ events) (hs : .step .stop ∉ events) :
    (e.run events).registered = e.registered := by
  refine run_keeps (P := fun e' => e'.registered = e.registered) ?_ rfl
  intro e x hmem heq
  exact (registered_still (fun tick h => hx tick (h ▸ hmem)) fun h => hs (h ▸ hmem)).trans heq

/-- After a call to stop no run is registered. -/
theorem registered_stop (e : Engine) : (e.step .stop).registered = none := by
  simp only [step, stop]
  split
  · rfl
  · next h => exact h

theorem registered_after_stop (hx : ∀ tick, .begin tick ∉ events) (hs : .step .stop ∈ events) :
    (e.run events).registered = none := by
  obtain ⟨before, after, rfl⟩ := List.append_of_mem hs
  rw [run_append]
  exact registered_run (registered_stop (e.run before)) fun tick hmem => hx tick (by simp [hmem])

/-- **What calls to stop wait for.** Up to the next run, the first call after the beginning of a
run takes that run; when it returns the main loop is off, and does nothing from then on. Any later
call takes no run; the main loop has been cancelled by then. -/
theorem first_stop_waits (tree : Route) (settings : EngineSettings)
    (before mid after : List Event) (tick : Nat)
    (off : (Engine.run { tree, settings } before).mainLoop = none)
    (single : ∀ tick, .begin tick ∉ mid ++ after) :
    let e := Engine.run { tree, settings } (before ++ .begin tick :: mid)
    let e' := (e.step .stop).run after
    (.step .stop ∉ mid → ∃ run, e.stop.1 = some run ∧ (e'.isOver run = true →
      ∀ later, (∀ tick, .begin tick ∉ later) → ∀ x : Event, x.isOfLoop = true →
        (e'.run later).react x = e'.run later)) ∧
    (.step .stop ∈ mid →
      e.stop.1 = none ∧ ∀ loop, e.mainLoop = some loop → loop.isCancelled = true) := by
  intro e e'
  have hmid : ∀ tick, .begin tick ∉ mid := fun t h => single t (List.mem_append_left _ h)
  have hafter : ∀ tick, .begin tick ∉ after := fun t h => single t (List.mem_append_right _ h)
  have he : e = ((Engine.run { tree, settings } before).begin tick).run mid := by
    rw [show e = _ from run_append _ before (.begin tick :: mid), run, List.foldl_cons, react, off]
    rfl
  have hreach : InReach e := inReach_run tree settings _
  constructor
  · intro hfirst
    have hregistered : e.registered = some e.groupsRun := by
      rw [he, registered_until hmid hfirst, groupsRun_run hmid]
      rfl
    refine ⟨e.groupsRun, by rw [stop, hregistered], fun hover later hlater x hx => ?_⟩
    have hsame : e'.groupsRun = e.groupsRun := by
      have hstop : (e.react (.step .stop)).groupsRun = e.groupsRun := groupsRun_react (by simp)
      exact (groupsRun_run hafter).trans hstop
    have hreach' : InReach e' := by
      have heq : e' = Engine.run { tree, settings }
          (before ++ .begin tick :: mid ++ .step .stop :: after) :=
        (run_append _ (before ++ .begin tick :: mid) (.step .stop :: after)).symm
      exact heq ▸ inReach_run tree settings _
    have off' : e'.mainLoop = none := by
      rw [Option.eq_none_iff_forall_ne_some]
      intro loop on
      have hrun := (hreach'.loop loop on).trans hsame
      simp [isOver, on, hrun] at hover
    exact react_of_off (off_run off' hlater) hx
  · intro hlater
    have hnone : e.registered = none := he ▸ registered_after_stop hmid hlater
    exact ⟨by rw [stop, hnone], hreach.stopped hnone⟩

/-- A second call returns although the main loop is on and still creates a group. -/
example :
    let e := Engine.run { tree := namedRoute } [.begin 0, .step .stop]
    let e' := (e.step .stop).react (.sort (Group.secondsIn 1) (Group.alertFrom "A" 0) namedRoute)
    e.stop.1 = none ∧ e.isOver 1 = false ∧ e.created = 0 ∧ e'.created = 1 := by
  decide +kernel

end AlertFlow.Engine
