import AlertFlow.Proofs.Engine.Sweeping
import Mathlib.Algebra.GroupWithZero.Nat
import Mathlib.Algebra.Order.BigOperators.Group.List
import Mathlib.Algebra.Order.Group.Nat

/-!
How far a sweep gets. A sweep that starts has every route of the map before it, and is over only
when it has looked through all of them. What it has before it is a number that no step of anyone
raises and that each step of its own lowers, unless it waits for a group that was taken out and has
not ended. Such a group is cancelled and can end at any time, so that every sweep can come to its
end.
-/
namespace AlertFlow

/-! ## What a sweep has before it -/

namespace GroupMap

variable {m : GroupMap}

/-- How many groups stand under a route. -/
def sizeUnder (m : GroupMap) (id : RouteId) : Nat := ((m.get? id).map Table.size).getD 0

theorem sizeUnder_mapGroups (f : Group → Group) (id : RouteId) :
    (m.mapGroups f).sizeUnder id = m.sizeUnder id := by
  rw [sizeUnder, mapGroups, Table.get?_map, sizeUnder]
  cases m.get? id with
  | none => rfl
  | some groups => simp [Table.size, Table.map]

theorem sizeUnder_remove_le (id id' : RouteId) (fp : Fingerprint) :
    (m.remove id fp).sizeUnder id' ≤ m.sizeUnder id' := by
  rw [sizeUnder, remove, Table.get?_modify, sizeUnder]
  by_cases hid : id = id'
  · subst hid
    rw [if_pos rfl]
    cases m.get? id with
    | none => exact Nat.le_refl _
    | some groups => exact List.length_filter_le _ _
  · rw [if_neg hid]

theorem length_emptyUnder_le (id : RouteId) : (m.emptyUnder id).length ≤ m.sizeUnder id := by
  unfold emptyUnder sizeUnder
  cases m.get? id with
  | none => exact Nat.le_refl _
  | some groups =>
    rw [List.length_map]
    exact List.length_filter_le _ _

/-- The groups of all routes are those of the map. -/
theorem sum_sizeUnder (m : GroupMap) :
    ((m.toList.map Prod.fst).map m.sizeUnder).sum = m.toGroups.length := by
  rw [toGroups, Table.values, List.flatMap_map, List.length_flatMap, List.map_map]
  refine congrArg List.sum (List.map_congr_left fun e he => ?_)
  have hget : m.get? e.1 = some e.2 := (Table.mem_toList_iff m e.1 e.2).1 he
  simp [sizeUnder, hget, Table.values, Table.size]

end GroupMap

namespace Sweep

variable {s : Sweep} {m : GroupMap}

/-- Whether the group that a sweep has taken out has not ended. -/
def isWaiting (s : Sweep) : Bool := s.leaving.any (!·.hasEnded)

/-- How many steps a sweep has before it at most, apart from waiting: one for each route to be
looked through, two for each group that has been found or stands under such a route, and one for a
group that is leaving. -/
def toGo (m : GroupMap) (s : Sweep) : Nat :=
  s.routes.length + 2 * ((s.routes.map m.sizeUnder).sum + s.found.length) + s.leaving.isSome.toNat

/-- A sweep that starts has all routes and all groups before it. -/
theorem toGo_start (m : GroupMap) : (start m).toGo m = length m := by
  rw [toGo, start, GroupMap.sum_sizeUnder, length]
  simp [Table.size, Table.toList]

/-- Only how many groups there are under each route counts, and whether one is leaving. -/
theorem toGo_le {s' : Sweep} {m' : GroupMap} (routes : s'.routes = s.routes)
    (found : s'.found = s.found) (leaving : s'.leaving.isSome = s.leaving.isSome)
    (h : ∀ id, m'.sizeUnder id ≤ m.sizeUnder id) : s'.toGo m' ≤ s.toGo m := by
  have hsum : (s.routes.map m'.sizeUnder).sum ≤ (s.routes.map m.sizeUnder).sum :=
    List.sum_le_sum fun id _ => h id
  rw [toGo, toGo, routes, found, leaving]
  omega

/-- **A step that does not wait leaves a sweep less to do.** -/
theorem toGo_step_lt (waits : s.isWaiting = false) (busy : s.isDone = false) :
    (s.step m).1.toGo (s.step m).2 < s.toGo m := by
  obtain ⟨routes, found, _ | g⟩ := s
  · rcases found with _ | ⟨⟨id, fp⟩, found⟩
    · rcases routes with _ | ⟨id, routes⟩
      · cases busy
      · -- what the sweep finds under a route stood under it
        have hfound := GroupMap.length_emptyUnder_le (m := m) id
        simp only [step, toGo, List.length_cons, List.map_cons, List.sum_cons, List.length_map,
          List.length_nil]
        omega
    · have hsum : (routes.map (m.remove id fp).sizeUnder).sum ≤ (routes.map m.sizeUnder).sum :=
        List.sum_le_sum fun id' _ => GroupMap.sizeUnder_remove_le id id' fp
      have hleaving := Bool.toNat_le ((m.find? id fp).map Group.cancel).isSome
      simp only [step, toGo, List.length_cons]
      omega
  · have ended : g.hasEnded = true := by simpa [isWaiting] using waits
    simp [step, ended, toGo]

theorem toGo_step_le : (s.step m).1.toGo (s.step m).2 ≤ s.toGo m := by
  by_cases waits : s.isWaiting = true
  · -- a sweep that waits stays as it is
    obtain ⟨routes, found, _ | g⟩ := s
    · cases waits
    · have lives : g.hasEnded = false := by simpa [isWaiting] using waits
      simp [step, lives]
  · by_cases busy : s.isDone = true
    · -- so does one that is done
      obtain ⟨_ | _, _ | _, _ | _⟩ := s
      · exact Nat.le_refl _
      all_goals cases busy
    · rw [Bool.not_eq_true] at waits busy
      exact Nat.le_of_lt (toGo_step_lt waits busy)

/-- A route that a sweep has before it is looked through next, or stays before it. -/
theorem scanned_or_ahead {id : RouteId} (hid : id ∈ s.routes) :
    s.scanned? = some id ∨ id ∈ (s.step m).1.routes := by
  obtain ⟨routes, found, _ | g⟩ := s
  · rcases found with _ | ⟨place, found⟩
    · rcases routes with _ | ⟨id', routes⟩
      · cases hid
      · rcases List.mem_cons.1 hid with rfl | hid
        · exact .inl rfl
        · exact .inr hid
    · exact .inr hid
  · right
    simp only [step]
    split <;> exact hid

end Sweep

namespace Engine

variable {e : Engine} {s : Sweep}

/-- A step of the sweep ends it if it is done, and takes it on if it is not. -/
theorem stepSweep_cases (hs : e.sweep? = some s) :
    (s.isDone = true ∧ (e.step .stepSweep).sweep? = none) ∨
      (s.isDone = false ∧ (e.step .stepSweep).sweep? = some (s.step e.groups).1 ∧
        (e.step .stepSweep).groups = (s.step e.groups).2) := by
  obtain ⟨loop, on, sweeping⟩ := Option.bind_eq_some_iff.1 hs
  cases hdone : s.isDone with
  | true => simp [step, stepSweep, on, sweeping, hdone, sweep?]
  | false => simp [step, stepSweep, on, sweeping, hdone, sweep?]

/-- What the sweep that is under way has before it, its end included. -/
def toGo (e : Engine) : Nat := (e.sweep?.map fun s => s.toGo e.groups + 1).getD 0

theorem toGo_eq (hs : e.sweep? = some s) : e.toGo = s.toGo e.groups + 1 := by
  rw [toGo, hs]
  rfl

theorem toGo_of_free (hs : e.sweep? = none) : e.toGo = 0 := by
  rw [toGo, hs]
  rfl

/-- **The sweep gets on**: its steps leave it less to do, unless it waits. -/
theorem toGo_stepSweep_lt (hs : e.sweep? = some s) (waits : s.isWaiting = false) :
    (e.step .stepSweep).toGo < e.toGo := by
  rw [toGo_eq hs]
  rcases stepSweep_cases hs with ⟨-, hover⟩ | ⟨busy, hstep, hgroups⟩
  · rw [toGo_of_free hover]
    exact Nat.succ_pos _
  · rw [toGo_eq hstep, hgroups]
    exact Nat.succ_lt_succ (Sweep.toGo_step_lt waits busy)

/-- **Nobody puts it back**: no step leaves it more to do. -/
theorem toGo_step_le (hs : e.sweep? = some s) (st : Step) : (e.step st).toGo ≤ e.toGo := by
  have hst := stepped e st
  generalize e.step st = e' at hst
  cases hst with
  | moved serial s' =>
    have hs' := sweep?_mapGroups e (e.movedBy (.group serial s'))
    rw [hs, Option.map_some] at hs'
    rw [toGo_eq hs', toGo_eq hs]
    apply Nat.succ_le_succ
    refine Sweep.toGo_le rfl rfl Option.isSome_map fun id => ?_
    exact Nat.le_of_eq (GroupMap.sizeUnder_mapGroups _ id)
  | idle => exact Nat.le_refl _
  | started tick loop on free => simp [sweep?, on, free] at hs
  | swept loop sw on sweeping =>
    have hsw : e.sweep? = some sw := sweep?_of_loop on sweeping
    rw [toGo_eq hsw]
    exact Nat.succ_le_succ Sweep.toGo_step_le
  | cleared => exact Nat.zero_le _
  | stopped run =>
    have hs' : (e.cancelRun run).sweep? = some s := (sweep?_cancelRun e run).trans hs
    show (e.cancelRun run).toGo ≤ e.toGo
    rw [toGo_eq hs', toGo_eq hs]
    apply Nat.succ_le_succ
    refine Sweep.toGo_le rfl rfl rfl fun id => ?_
    simp only [cancelRun]
    split
    · exact Nat.le_of_eq (GroupMap.sizeUnder_mapGroups _ id)
    · exact Nat.le_refl _

/-! ## Steps that count -/

/-- Whether an event is a step of the sweep that takes it on. -/
def advances (e : Engine) : Event → Bool
  | .step .stepSweep => e.sweep?.any (!·.isWaiting)
  | _ => false

theorem toGo_lt_of_advances {x : Event} (h : e.advances x = true) :
    (e.react x).toGo < e.toGo := by
  cases x with
  | step st =>
    cases st with
    | stepSweep =>
      obtain ⟨s, hs, waits⟩ := (Option.any_eq_true _ _).1 h
      exact toGo_stepSweep_lt hs (by simpa using waits)
    | group serial s => cases h
    | startSweep tick => cases h
    | stop => cases h
  | begin tick => cases h
  | sort m a r => cases h
  | finish => cases h

theorem toGo_react_le (hs : e.sweep?.isSome = true) (x : Event) : (e.react x).toGo ≤ e.toGo := by
  rcases step_or_idle hs x with ⟨st, rfl⟩ | ⟨hidle, -⟩
  · obtain ⟨s, hs⟩ := Option.isSome_iff_exists.1 hs
    exact toGo_step_le hs st
  · rw [hidle]

/-- How many steps the sweep takes during some events, apart from waiting. -/
def strides : Engine → List Event → Nat
  | _, [] => 0
  | e, x :: events => (e.advances x).toNat + strides (e.react x) events

/-- **A sweep takes no more steps than it had before it**, whatever happens meanwhile. -/
theorem strides_le {events : List Event} (hat : e.AtSweep events) :
    e.strides events + (e.run events).toGo ≤ e.toGo := by
  induction events generalizing e with
  | nil =>
    rw [strides, Nat.zero_add]
    exact Nat.le_refl _
  | cons x events ih =>
    obtain ⟨hs, hat⟩ := hat
    have hrest := ih hat
    have hx : (e.advances x).toNat + (e.react x).toGo ≤ e.toGo := by
      cases hadv : e.advances x with
      | false =>
        rw [Bool.toNat_false, Nat.zero_add]
        exact toGo_react_le hs x
      | true =>
        rw [Bool.toNat_true, Nat.add_comm]
        exact toGo_lt_of_advances hadv
    show (e.advances x).toNat + (e.react x).strides events + ((e.react x).run events).toGo ≤ e.toGo
    omega

/-! ## Routes ahead -/

/-- Whether the sweep looks through a route at one of some events. -/
def LooksThrough (e : Engine) (events : List Event) (id : RouteId) : Prop :=
  ∃ before after, events = before ++ .step .stepSweep :: after ∧
    (e.run before).scanned? = some id

theorem LooksThrough.append {events : List Event} {id : RouteId} (h : e.LooksThrough events id)
    (more : List Event) : e.LooksThrough (events ++ more) id := by
  obtain ⟨before, after, rfl, hscanned⟩ := h
  exact ⟨before, after ++ more, by simp, hscanned⟩

/-- A route that the sweep has before it is looked through, or stays before it. -/
theorem scanned_or_ahead (hs : e.sweep? = some s) {id : RouteId} (hid : id ∈ s.routes)
    (st : Step) : (st = .stepSweep ∧ e.scanned? = some id) ∨
      ∃ s', (e.step st).sweep? = some s' ∧ id ∈ s'.routes := by
  have hst := stepped e st
  generalize e.step st = e' at hst
  cases hst with
  | moved serial s' =>
    right
    rw [sweep?_mapGroups, hs]
    exact ⟨_, rfl, hid⟩
  | idle => exact .inr ⟨s, hs, hid⟩
  | started tick loop on free => simp [sweep?, on, free] at hs
  | swept loop sw on sweeping =>
    obtain rfl : sw = s := Option.some.inj ((sweep?_of_loop on sweeping).symm.trans hs)
    rcases Sweep.scanned_or_ahead (m := e.groups) hid with hscanned | hahead
    · exact .inl ⟨rfl, by rw [scanned?, hs, Option.bind_some, hscanned]⟩
    · exact .inr ⟨_, rfl, hahead⟩
  | cleared loop sw on sweeping done =>
    -- a sweep that is done has no route before it
    obtain rfl : sw = s := Option.some.inj ((sweep?_of_loop on sweeping).symm.trans hs)
    simp only [Sweep.isDone, Bool.and_eq_true, List.isEmpty_iff] at done
    rw [done.1.1] at hid
    cases hid
  | stopped run => exact .inr ⟨s, (sweep?_cancelRun e run).trans hs, hid⟩

theorem looksThrough_or_ahead (hs : e.sweep? = some s) {id : RouteId} (hid : id ∈ s.routes)
    {events : List Event} (hat : e.AtSweep events) :
    e.LooksThrough events id ∨ ∃ s', (e.run events).sweep? = some s' ∧ id ∈ s'.routes := by
  induction events using List.reverseRecOn with
  | nil => exact .inr ⟨s, hs, hid⟩
  | append_singleton events x ih =>
    obtain ⟨hat, hsome⟩ := atSweep_concat.1 hat
    rw [run_concat]
    rcases ih hat with hlooks | ⟨s', hs', hid'⟩
    · exact .inl (hlooks.append [x])
    · rcases step_or_idle hsome x with ⟨st, rfl⟩ | ⟨hidle, -⟩
      · rcases scanned_or_ahead hs' hid' st with ⟨rfl, hscanned⟩ | hahead
        · exact .inl ⟨events, [], rfl, hscanned⟩
        · exact .inr hahead
      · rw [hidle]
        exact .inr ⟨s', hs', hid'⟩

/-! ## Ways to the end -/

/-- Whether some steps bring the sweep that is under way to its end. They are its own, and those by
which the group that it waits for ends. -/
inductive WindsUp : Engine → List Step → Prop
  | done {e : Engine} (free : e.sweep? = none) : WindsUp e []
  | swept {e : Engine} {steps : List Step} (on : e.sweep?.isSome = true)
      (rest : WindsUp (e.step .stepSweep) steps) : WindsUp e (.stepSweep :: steps)
  | ended {e : Engine} {steps : List Step} {g : Group} {s : Group.Step}
      (leaving : e.leaving? = some g) (ending : s.isEnding = true)
      (rest : WindsUp (e.step (.group g.serial s)) steps) :
      WindsUp e (.group g.serial s :: steps)

theorem WindsUp.sweep?_run {steps : List Step} (h : WindsUp e steps) :
    (e.run (steps.map .step)).sweep? = none := by
  induction h with
  | done free => exact free
  | swept on rest ih => exact ih
  | ended leaving ending rest ih => exact ih

/-- Lets the group of a number take some steps. -/
def runGroup (e : Engine) (n : Nat) (l : List Group.Step) : Engine :=
  l.foldl (fun e s => e.step (.group n s)) e

theorem inReach_runGroup (hr : InReach e) (n : Nat) (l : List Group.Step) :
    InReach (e.runGroup n l) := by
  induction l generalizing e with
  | nil => exact hr
  | cons s l ih => exact ih (hr.step_ne_stop (by simp))

section Leaving

variable {g : Group} {n : Nat} (hg : e.leaving? = some g) (hn : g.serial = n)
include hg hn

/-- The group that is leaving takes its own steps. -/
theorem leaving?_step_own (s : Group.Step) :
    (e.step (.group n s)).leaving? = some (g.step s) ∧ (g.step s).serial = n := by
  refine ⟨?_, (Group.serial_react g (.step s)).trans hn⟩
  show (e.mapGroups _).leaving? = _
  rw [leaving?_mapGroups, hg, Option.map_some, if_pos hn]

/-- While the group that is leaving takes steps, it goes on leaving and the sweep has no more before
it. -/
theorem leaving?_runGroup (l : List Group.Step) :
    (e.runGroup n l).leaving? = some (l.foldl Group.step g) ∧ (e.runGroup n l).toGo ≤ e.toGo := by
  induction l generalizing e g with
  | nil => exact ⟨hg, Nat.le_refl _⟩
  | cons s l ih =>
    obtain ⟨hg', hn'⟩ := leaving?_step_own hg hn s
    obtain ⟨hleaving, hle⟩ := ih hg' hn'
    obtain ⟨sw, hsw, -⟩ := leaving?_eq_some.1 hg
    exact ⟨hleaving, Nat.le_trans hle (toGo_step_le hsw _)⟩

/-- Steps by which the group that is leaving ends may come before those that bring the sweep to its
end. -/
theorem WindsUp.prepend {l : List Group.Step} (hl : ∀ s ∈ l, s.isEnding = true)
    {steps : List Step} (h : WindsUp (e.runGroup n l) steps) :
    WindsUp e (l.map (.group n) ++ steps) := by
  induction l generalizing e g with
  | nil => exact h
  | cons s l ih =>
    obtain ⟨hg', hn'⟩ := leaving?_step_own hg hn s
    have hrest := ih hg' hn' (fun s' hs' => hl s' (List.mem_cons_of_mem _ hs')) h
    subst hn
    exact .ended hg (hl s List.mem_cons_self) hrest

end Leaving

/-- **A sweep can come to its end** by steps of its own and by the end of the groups that it takes
out, which are cancelled. -/
theorem exists_windsUp (hr : InReach e) : ∃ steps, WindsUp e steps := by
  induction h : e.toGo using Nat.strong_induction_on generalizing e with
  | _ n ih =>
    cases hs : e.sweep? with
    | none => exact ⟨[], .done hs⟩
    | some s =>
      have hon : e.sweep?.isSome = true := Option.isSome_iff_exists.2 ⟨s, hs⟩
      cases hwaits : s.isWaiting with
      | false =>
        have hlt : (e.step .stepSweep).toGo < n := h ▸ toGo_stepSweep_lt hs hwaits
        obtain ⟨steps, hsteps⟩ := ih _ hlt (hr.step_ne_stop (by simp)) rfl
        exact ⟨_, .swept hon hsteps⟩
      | true =>
        -- the group that is leaving ends first
        obtain ⟨g, leaving, -⟩ := (Option.any_eq_true _ _).1 hwaits
        have hg : e.leaving? = some g := leaving?_eq_some.2 ⟨s, hs, leaving⟩
        have hends := Group.hasEnded_endings (hr.leaving g hg)
        obtain ⟨hg', hle⟩ := leaving?_runGroup hg rfl g.endings
        have hr' := inReach_runGroup hr g.serial g.endings
        obtain ⟨s', hs', leaving'⟩ := leaving?_eq_some.1 hg'
        have hwaits' : s'.isWaiting = false := by simp [Sweep.isWaiting, leaving', hends]
        have hlt : ((e.runGroup g.serial g.endings).step .stepSweep).toGo < n :=
          h ▸ Nat.lt_of_lt_of_le (toGo_stepSweep_lt hs' hwaits') hle
        obtain ⟨steps, hsteps⟩ := ih _ hlt (hr'.step_ne_stop (by simp)) rfl
        have hon' := Option.isSome_iff_exists.2 ⟨s', hs'⟩
        have hending : ∀ s ∈ g.endings, s.isEnding = true := fun s => Group.isEnding_of_mem_endings
        exact ⟨_, .prepend hg rfl hending (.swept hon' hsteps)⟩

/-- A sweep that starts has all routes of the map before it. -/
theorem sweep?_startSweep (free : e.sweep? = none) {tick : Nat}
    (on : (e.step (.startSweep tick)).sweep?.isSome = true) :
    (e.step (.startSweep tick)).sweep? = some (Sweep.start e.groups) := by
  have hst := stepped e (.startSweep tick)
  generalize e.step (.startSweep tick) = e' at hst on ⊢
  cases hst with
  | idle => simp [free] at on
  | started => rfl

/-- **A sweep that starts looks through the whole map and can come to its end**, at any time of any
run, whatever the groups do meanwhile. It takes no more steps than there are for the routes and the
groups that the map had, apart from those at which it waits for a group to end, and as long as it
lasts there are steps of its own and of the groups that it takes out that bring it to its end. When
it is over, it has looked through every route that the map had. -/
theorem started_sweep_looks_through (tree : Route) (settings : EngineSettings)
    (before : List Event) (tick : Nat) :
    let e := Engine.run { tree, settings } before
    let e' := e.step (.startSweep tick)
    e.sweep? = none → e'.sweep?.isSome = true → ∀ after, e'.AtSweep after →
      e'.strides after ≤ Sweep.length e.groups + 1 ∧
      (∃ steps, WindsUp (e'.run after) steps ∧
        ((e'.run after).run (steps.map .step)).sweep? = none) ∧
      ((e'.run after).sweep? = none → ∀ id groups, e.groups.get? id = some groups →
        e'.LooksThrough after id) := by
  intro e e' free on after hat
  have hs : e'.sweep? = some (Sweep.start e.groups) := sweep?_startSweep free on
  have hgroups : e'.groups = e.groups := groups_startSweep e tick
  refine ⟨?_, ?_, ?_⟩
  · have hle := strides_le hat
    rw [toGo_eq hs, hgroups, Sweep.toGo_start] at hle
    omega
  · have hr := inReach_run tree settings (before ++ .step (.startSweep tick) :: after)
    rw [run_append] at hr
    obtain ⟨steps, hsteps⟩ := exists_windsUp hr
    exact ⟨steps, hsteps, hsteps.sweep?_run⟩
  · intro hover id groups hget
    have hid : id ∈ (Sweep.start e.groups).routes :=
      List.mem_map_of_mem ((Table.mem_toList_iff _ _ _).2 hget)
    rcases looksThrough_or_ahead hs hid hat with hlooks | ⟨s', hs', -⟩
    · exact hlooks
    · rw [hover] at hs'
      cases hs'

/-- The bound is reached: the sweep looks through one route, takes out one group, sees it end and is
over. -/
example :
    let e := Engine.run { tree := Group.timedRoute (.ofSecs 30) (.ofSecs 300) } (renewedRun.take 5)
    let e' := e.step (.startSweep 31000)
    let after := (renewedRun.drop 6).take 5
    e'.strides after = Sweep.length e.groups + 1 ∧ (e'.run after).sweep?.isNone = true := by
  decide +kernel

end Engine

end AlertFlow
