import AlertFlow.Proofs.Engine.Receive

/-!
Runs of the engine: runs of its main loop begin and end, the main loop sorts alerts into groups, and
the engine takes its steps, in any order. The main loop sorts an alert into one group after another,
so that a call to stop may come in between. A run of the main loop begins only when none is on, and
the main loop neither sorts nor ends while it is at a sweep; an event that cannot happen changes
nothing.

Of the groups whose timers may run, an event creates at most one, which has a number of its own, and
lets at most one go, which has been cancelled and has ended. The others stay as they are or react.
-/
namespace AlertFlow.Engine

/-- What happens at an engine. -/
inductive Event where
  | begin (tick : Nat)
  | sort (m : Moment) (a : Alert) (route : Route)
  | finish
  | step (s : Step)

/-- Lets an event happen. -/
def react (e : Engine) : Event → Engine
  | .begin tick => if e.mainLoop.isSome then e else e.begin tick
  | .sort m a route =>
    match e.mainLoop with
    | some ⟨_, isCancelled, _, none⟩ => sort m isCancelled a e route
    | _ => e
  | .finish =>
    match e.mainLoop with
    | some ⟨_, _, _, none⟩ => e.endLoop
    | _ => e
  | .step s => e.step s

/-- Lets events happen one after another. -/
def run (e : Engine) (events : List Event) : Engine := events.foldl react e

theorem run_append (e : Engine) (xs ys : List Event) : e.run (xs ++ ys) = (e.run xs).run ys :=
  List.foldl_append

theorem run_concat (e : Engine) (events : List Event) (x : Event) :
    e.run (events ++ [x]) = (e.run events).react x := by
  simp [run]

/-- What each event of a run keeps holds after the run. -/
theorem run_keeps {P : Engine → Prop} {e : Engine} {events : List Event}
    (keeps : ∀ e, ∀ x ∈ events, P e → P (e.react x)) (h : P e) : P (e.run events) := by
  induction events generalizing e with
  | nil => exact h
  | cons x events ih =>
    refine ih (fun e y hy => keeps e y (List.mem_cons_of_mem x hy)) ?_
    exact keeps e x List.mem_cons_self h

/-- What an event makes of the engine, unless it cannot happen. -/
inductive Reacted (e : Engine) : Event → Engine → Prop where
  | idle (x : Event) : Reacted e x e
  | begun (tick : Nat) (off : e.mainLoop = none) : Reacted e (.begin tick) (e.begin tick)
  | sorted (loop : MainLoop) (on : e.mainLoop = some loop) (free : loop.sweep = none) (m : Moment)
      (a : Alert) (route : Route) :
      Reacted e (.sort m a route) (sort m loop.isCancelled a e route)
  | finished (loop : MainLoop) (on : e.mainLoop = some loop) (free : loop.sweep = none) :
      Reacted e .finish e.endLoop
  | stepped (s : Step) : Reacted e (.step s) (e.step s)

theorem reacted (e : Engine) (x : Event) : Reacted e x (e.react x) := by
  cases x with
  | begin tick =>
    simp only [react]
    split
    · exact .idle _
    · next off => exact .begun tick (by simpa using off)
  | sort m a route =>
    simp only [react]
    split
    · next on => exact .sorted _ on rfl m a route
    · exact .idle _
  | finish =>
    simp only [react]
    split
    · next on => exact .finished _ on rfl
    · exact .idle _
  | step s => exact .stepped s

variable {e : Engine}

/-- Taking up an alert is a run: the alert is sorted into the group of one route after another. -/
theorem receive_eq_run {loop : MainLoop} (h : e.mainLoop = some loop)
    (free : loop.sweep = none) (m : Moment) (a : Alert) :
    e.receive m a none = e.run ((e.tree.select a.labels).map (.sort m a)) := by
  rw [receive_eq h, run]
  generalize e.tree.select a.labels = rs
  obtain ⟨run, isCancelled, nextSweep, sweep⟩ := loop
  cases free
  induction rs generalizing e with
  | nil => rfl
  | cons r rs ih =>
    rw [List.foldl_cons, List.map_cons, List.foldl_cons, ih (by rw [mainLoop_sort, h])]
    simp only [react, h]

/-! ## What becomes of the groups -/

/-- What becomes of a group in one event: it stays as it is, or it reacts. -/
def Carried (g g' : Group) : Prop := g' = g ∨ ∃ x, g' = g.react x

theorem Carried.serial_eq {g g' : Group} (h : Carried g g') : g'.serial = g.serial := by
  rcases h with rfl | ⟨x, rfl⟩
  · rfl
  · exact Group.serial_react g x

/-- What a step makes of a group: the group stays as it is unless the step is its own, or it is
cancelled. -/
inductive Moved (s : Step) (g : Group) : Group → Prop where
  | still (other : ∀ s', s ≠ .group g.serial s') : Moved s g g
  | cancelled (other : ∀ n s', s ≠ .group n s') : Moved s g g.cancel
  | stepped (s' : Group.Step) (own : s = .group g.serial s') : Moved s g (g.step s')

theorem Moved.carried {s : Step} {g g' : Group} (h : Moved s g g') : Carried g g' := by
  cases h with
  | still => exact .inl rfl
  | cancelled => exact .inr ⟨.cancel, rfl⟩
  | stepped s' => exact .inr ⟨.step s', rfl⟩

theorem moved_movedBy (e : Engine) (s : Step) (g : Group) : Moved s g (e.movedBy s g) := by
  cases s with
  | group serial s =>
    simp only [movedBy]
    split
    · next own => exact .stepped s (by rw [own])
    · next other => exact .still (by simp [Ne.symm other])
  | startSweep tick => exact .still (by simp)
  | stepSweep => exact .still (by simp)
  | stop =>
    simp only [movedBy]
    split
    · exact .cancelled (by simp)
    · exact .still (by simp)

theorem mem_allGroups {g : Group} : g ∈ e.allGroups ↔
    (∃ id fp, e.groups.find? id fp = some g) ∨ (∃ run, (run, g) ∈ e.detached) ∨
      e.leaving? = some g := by
  simp [allGroups, GroupMap.mem_toGroups]

theorem leaving?_mapGroups (e : Engine) (f : Group → Group) :
    (e.mapGroups f).leaving? = e.leaving?.map f := by
  rw [leaving?, sweep?_mapGroups, leaving?]
  cases e.sweep? <;> rfl

theorem leaving?_cancelRun (e : Engine) (run : Nat) : (e.cancelRun run).leaving? = e.leaving? := by
  rw [leaving?, sweep?_cancelRun, leaving?]

/-- What becomes of the groups detached from the map. -/
theorem moved_detached {s : Step} {run : Nat} {g' : Group} (h : (run, g') ∈ (e.step s).detached) :
    ∃ g, (run, g) ∈ e.detached ∧ Moved s g g' := by
  by_cases hs : ∃ n s', s = .group n s'
  · obtain ⟨n, s', rfl⟩ := hs
    obtain ⟨⟨run', g⟩, hg, heq⟩ := List.mem_map.1 h
    cases heq
    exact ⟨g, hg, moved_movedBy e (.group n s') g⟩
  · have other : ∀ n s', s ≠ .group n s' := fun n s' heq => hs ⟨n, s', heq⟩
    have hst := stepped e s
    generalize e.step s = e' at h hst
    cases hst with
    | moved n s' => exact absurd rfl (other n s')
    | idle | started | swept | cleared => exact ⟨g', h, .still (other _)⟩
    | stopped =>
      obtain ⟨⟨run', g⟩, hg, heq⟩ := List.mem_map.1 h
      split at heq
      · cases heq
        exact ⟨_, hg, .cancelled other⟩
      · cases heq
        exact ⟨_, hg, .still (other _)⟩

theorem leaving_sweep {s : Sweep} {m : GroupMap} {g' : Group}
    (h : (s.step m).1.leaving = some g') :
    s.leaving = some g' ∨
      ∃ id fp g, s.swept? = some (id, fp) ∧ m.find? id fp = some g ∧ g' = g.cancel := by
  obtain ⟨routes, found, _ | g⟩ := s
  · rcases found with _ | ⟨⟨id, fp⟩, found⟩
    · rcases routes with _ | ⟨id, routes⟩ <;> cases h
    · obtain ⟨g, hg, rfl⟩ := Option.map_eq_some_iff.1 h
      exact .inr ⟨id, fp, g, rfl, hg, rfl⟩
  · simp only [Sweep.step] at h
    split at h
    · cases h
    · exact .inl h

/-- A group that is leaving after a step was leaving before, or was taken out and cancelled. -/
theorem moved_leaving {s : Step} {g' : Group} (h : (e.step s).leaving? = some g') :
    (∃ g, e.leaving? = some g ∧ Moved s g g') ∨
      ∃ id fp g, e.clearedBy? s = some (id, fp) ∧ e.groups.find? id fp = some g ∧
        s = .stepSweep ∧ g' = g.cancel := by
  by_cases hs : ∃ n s', s = .group n s'
  · obtain ⟨n, s', rfl⟩ := hs
    have h : (e.mapGroups (e.movedBy (.group n s'))).leaving? = some g' := h
    rw [leaving?_mapGroups, Option.map_eq_some_iff] at h
    obtain ⟨g, hg, rfl⟩ := h
    exact .inl ⟨g, hg, moved_movedBy e (.group n s') g⟩
  · have other : ∀ n s', s ≠ .group n s' := fun n s' heq => hs ⟨n, s', heq⟩
    have hst := stepped e s
    generalize e.step s = e' at h hst
    cases hst with
    | moved n s' => exact absurd rfl (other n s')
    | idle => exact .inl ⟨g', h, .still (other _)⟩
    | started | cleared => cases h
    | swept loop sw on sweeping =>
      have hleaving : e.leaving? = sw.leaving := by simp [leaving?, sweep?, on, sweeping]
      rcases leaving_sweep h with hg | ⟨id, fp, g, hswept, hg, rfl⟩
      · exact .inl ⟨g', hleaving.trans hg, .still (other _)⟩
      · have hsw : e.sweep? = some sw := sweep?_of_loop on sweeping
        exact .inr ⟨id, fp, g, by rw [clearedBy?, hsw, Option.bind_some, hswept], hg, rfl, rfl⟩
    | stopped run =>
      have h : (e.cancelRun run).leaving? = some g' := h
      rw [leaving?_cancelRun] at h
      exact .inl ⟨g', h, .still (other _)⟩

/-- **What a step makes of the groups**: each was there before and is moved. -/
theorem moved_step {s : Step} {g' : Group} (h : g' ∈ (e.step s).allGroups) :
    ∃ g ∈ e.allGroups, Moved s g g' := by
  rcases mem_allGroups.1 h with ⟨id, fp, hg⟩ | ⟨run, hg⟩ | hg
  · obtain ⟨g, hold, rfl⟩ := find?_of_step hg
    exact ⟨g, mem_allGroups.2 (.inl ⟨id, fp, hold⟩), moved_movedBy e s g⟩
  · obtain ⟨g, hg, hm⟩ := moved_detached hg
    exact ⟨g, mem_allGroups.2 (.inr (.inl ⟨run, hg⟩)), hm⟩
  · rcases moved_leaving hg with ⟨g, hold, hm⟩ | ⟨id, fp, g, -, hold, rfl, rfl⟩
    · exact ⟨g, mem_allGroups.2 (.inr (.inr hold)), hm⟩
    · exact ⟨g, mem_allGroups.2 (.inl ⟨id, fp, hold⟩), .cancelled (by simp)⟩

/-- The groups of a run are all that there are when the next one begins. -/
theorem mem_allGroups_begin {tick : Nat} {g : Group} (h : g ∈ (e.begin tick).allGroups) :
    g ∈ e.allGroups := by
  rcases mem_allGroups.1 h with ⟨id, fp, hg⟩ | ⟨run, hg⟩ | hg
  · cases hg
  · rcases List.mem_append.1 hg with hg | hg
    · exact mem_allGroups.2 (.inr (.inl ⟨run, hg⟩))
    · obtain ⟨g, hg, heq⟩ := List.mem_map.1 hg
      cases heq
      exact mem_allGroups.2 (.inl (GroupMap.mem_toGroups.1 hg))
  · rw [leaving?_begin] at hg
    cases hg

theorem mem_allGroups_endLoop {g : Group} (h : g ∈ e.endLoop.allGroups) : g ∈ e.allGroups := by
  refine mem_allGroups.2 ?_
  rcases mem_allGroups.1 h with hg | hg | hg
  · exact .inl hg
  · exact .inr (.inl hg)
  · cases hg

/-! ## The numbers of the groups -/

/-- The numbers of the groups whose timers may run. -/
def serials (e : Engine) : List Nat := e.allGroups.map (·.serial)

/-- What an event does to the numbers of the groups. -/
inductive Turnover (e e' : Engine) : Prop where
  | kept (perm : e'.serials.Perm e.serials) (created : e'.created = e.created)
  | grown (perm : e'.serials.Perm (e.created :: e.serials)) (created : e'.created = e.created + 1)
  | shrunk (g : Group) (leaving : e.leaving? = some g) (ended : g.hasEnded = true)
      (perm : e.serials.Perm (g.serial :: e'.serials)) (created : e'.created = e.created)

theorem serials_eq (e : Engine) : e.serials = e.groups.toGroups.map (·.serial) ++
    e.detached.map (·.2.serial) ++ (e.leaving?.map (·.serial)).toList := by
  simp [serials, allGroups, Function.comp_def, Option.toList_map]

theorem turnover_begin (free : e.mainLoop = none) (tick : Nat) : Turnover e (e.begin tick) := by
  refine .kept ?_ rfl
  have hleaving : e.leaving? = none := by simp [leaving?, sweep?, free]
  rw [serials_eq, serials_eq, hleaving, leaving?_begin]
  simpa [begin, Function.comp_def] using List.perm_append_comm

/-- The numbers of the groups, with the one at a place first. -/
theorem perm_serials (hk : e.groups.Keyed) (id : RouteId) (fp : Fingerprint) :
    e.serials.Perm (((e.groups.find? id fp).map (·.serial)).toList ++
      ((e.groups.elsewhere id fp).map (·.serial) ++ e.detached.map (·.2.serial) ++
        (e.leaving?.map (·.serial)).toList)) := by
  have h := (hk.perm_elsewhere id fp).map (·.serial)
  rw [List.map_append, ← Option.toList_map] at h
  rw [serials_eq, ← List.append_assoc, ← List.append_assoc]
  exact (h.append_right _).append_right _

/-- Placing a group changes the number at its place only. -/
theorem perm_serials_place (hk : e.groups.Keyed) (g : Group) :
    (Engine.serials { e with groups := e.groups.place g }).Perm (g.serial ::
      ((e.groups.elsewhere g.route.id g.fingerprint).map (·.serial) ++
        e.detached.map (·.2.serial) ++ (e.leaving?.map (·.serial)).toList)) := by
  rw [serials_eq]
  exact (((hk.perm_place g).map (·.serial)).append_right _).append_right _

theorem serial_newGroup (e : Engine) (tick : Nat) (c : Bool) (r : Route) (labels : LabelSet) :
    (e.newGroup tick c r labels).serial = e.created := by
  rw [newGroup_eq]
  exact Group.serial_react _ _

theorem sort_eq (e : Engine) (m : Moment) (c : Bool) (a : Alert) (r : Route) :
    sort m c a e r = { e with
      groups := e.groups.place ((e.taker m c a.labels r).insert m.wall a)
      created := match e.groups.find? r.id (r.grouping a.labels).fingerprint with
        | some _ => e.created
        | none => e.created + 1 } := by
  simp only [sort, taker, Route.grouping]
  split <;> simp [*]

theorem turnover_sort (hk : e.groups.Keyed) (m : Moment) (c : Bool) (a : Alert) (r : Route) :
    Turnover e (sort m c a e r) := by
  have hold := perm_serials hk r.id (r.grouping a.labels).fingerprint
  obtain ⟨hid, hfp⟩ := taker_place (m := m) (c := c) hk a.labels r
  have hnew := perm_serials_place hk ((e.taker m c a.labels r).insert m.wall a)
  have hserial : ((e.taker m c a.labels r).insert m.wall a).serial =
    (e.taker m c a.labels r).serial := rfl
  rw [show ((e.taker m c a.labels r).insert m.wall a).route.id = r.id from hid,
    show ((e.taker m c a.labels r).insert m.wall a).fingerprint = _ from hfp, hserial] at hnew
  rw [sort_eq]
  unfold taker at hnew ⊢
  cases hf : e.groups.find? r.id (r.grouping a.labels).fingerprint with
  | some g =>
    rw [hf] at hold hnew
    exact .kept (hnew.trans hold.symm) rfl
  | none =>
    rw [hf] at hold hnew
    rw [Option.getD_none, serial_newGroup] at hnew
    exact .grown (hnew.trans (hold.symm.cons _)) rfl

theorem serials_mapGroups (f : Group → Group) (hf : ∀ g, Carried g (f g)) :
    (e.mapGroups f).serials = e.serials := by
  have hserial : ∀ g, (f g).serial = g.serial := fun g => (hf g).serial_eq
  rw [serials_eq, serials_eq, leaving?_mapGroups]
  simp [mapGroups, GroupMap.toGroups_mapGroups, Function.comp_def, hserial, mapLeaving, mapSweep]

theorem serials_cancelRun (run : Nat) : (e.cancelRun run).serials = e.serials := by
  rw [serials_eq, serials_eq, leaving?_cancelRun]
  congr 2
  · simp only [cancelRun]
    split
    · rw [GroupMap.toGroups_mapGroups, List.map_map]
      rfl
    · rfl
  · simp only [cancelRun, List.map_map]
    refine List.map_congr_left fun p _ => ?_
    simp only [Function.comp_apply]
    split <;> rfl

/-- A group that is taken out of the map and is leaving has its number still. -/
theorem perm_serials_take_out (hk : e.groups.Keyed) (id : RouteId) (fp : Fingerprint)
    (hnone : e.leaving? = none) :
    (((e.groups.remove id fp).toGroups.map (·.serial)) ++ e.detached.map (·.2.serial) ++
      ((e.groups.find? id fp).map (·.serial)).toList).Perm e.serials := by
  have h := perm_serials hk id fp
  rw [hnone, Option.map_none, Option.toList_none, List.append_nil] at h
  have hremove := ((hk.perm_remove id fp).map (·.serial)).append_right
    (e.detached.map (·.2.serial))
  exact ((hremove.append_right _).trans List.perm_append_comm).trans h.symm

theorem turnover_sweep (hk : e.groups.Keyed) {loop : MainLoop} {s : Sweep}
    (hloop : e.mainLoop = some loop) (hs : loop.sweep = some s) :
    Turnover e { e with
      groups := (s.step e.groups).2
      mainLoop := some { loop with sweep := some (s.step e.groups).1 } } := by
  have hleaving : e.leaving? = s.leaving := by simp [leaving?, sweep?, hloop, hs]
  obtain ⟨routes, found, _ | g⟩ := s
  · rcases found with _ | ⟨⟨id, fp⟩, found⟩
    · -- the sweep looks through a route, or nothing is left to do
      refine .kept (.of_eq ?_) rfl
      rw [serials_eq, serials_eq, hleaving]
      cases routes <;> rfl
    · refine .kept ?_ rfl
      have h := perm_serials_take_out hk id fp hleaving
      have hserial : ∀ g : Group, g.cancel.serial = g.serial := fun _ => rfl
      rw [serials_eq]
      simpa [leaving?, sweep?, Sweep.step, Function.comp_def, hserial] using h
  · simp only [Sweep.step]
    split
    · next hended =>
      refine .shrunk g hleaving hended ?_ rfl
      rw [serials_eq, serials_eq, hleaving]
      simpa [leaving?, sweep?] using List.perm_append_singleton g.serial
        (e.groups.toGroups.map (·.serial) ++ e.detached.map (·.2.serial))
    · refine .kept (.of_eq ?_) rfl
      rw [serials_eq, serials_eq, hleaving]
      rfl

theorem turnover_step (hk : e.groups.Keyed) (s : Step) : Turnover e (e.step s) := by
  have hs := stepped e s
  generalize e.step s = e' at hs
  cases hs with
  | moved serial s =>
    exact .kept (.of_eq (serials_mapGroups _ fun g => (moved_movedBy e _ g).carried)) rfl
  | idle => exact .kept (.refl _) rfl
  | started tick loop on free =>
    have hnone : e.leaving? = none := by simp [leaving?, sweep?, on, free]
    refine .kept (.of_eq ?_) rfl
    rw [serials_eq, serials_eq, hnone]
    rfl
  | swept loop sw on sweeping => exact turnover_sweep hk on sweeping
  | cleared loop sw on sweeping done =>
    have hnone : e.leaving? = none := by
      simp only [Sweep.isDone, Bool.and_eq_true, Option.isNone_iff_eq_none] at done
      simp [leaving?, sweep?, on, sweeping, done.2]
    refine .kept (.of_eq ?_) rfl
    rw [serials_eq, serials_eq, hnone, GroupMap.toGroups_withoutEmptyRoutes]
    rfl
  | stopped run => exact .kept (.of_eq (serials_cancelRun run)) rfl

/-- **What an event does to the numbers of the groups.** -/
theorem turnover_react (hk : e.groups.Keyed) (x : Event) : Turnover e (e.react x) := by
  have hx := reacted e x
  generalize e.react x = e' at hx
  cases hx with
  | idle => exact .kept (.refl _) rfl
  | begun tick off => exact turnover_begin off tick
  | sorted loop on free m a route => exact turnover_sort hk m _ a route
  | finished loop on free =>
    have hnone : e.leaving? = none := by simp [leaving?, sweep?, on, free]
    refine .kept (.of_eq ?_) rfl
    rw [serials_eq, serials_eq, hnone]
    rfl
  | stepped s => exact turnover_step hk s

theorem keyed_react (hk : e.groups.Keyed) (x : Event) : (e.react x).groups.Keyed := by
  have hx := reacted e x
  generalize e.react x = e' at hx
  cases hx with
  | idle | finished => exact hk
  | begun =>
    intro id fp g hg
    cases hg
  | sorted loop on free m a route => exact keyed_sort hk route
  | stepped s => exact keyed_step hk s

/-- Where a group that is there after an event comes from. -/
inductive Origin (e : Engine) (g' : Group) : Prop where
  | carried (g : Group) (mem : g ∈ e.allGroups) (carried : Carried g g')
  | created (loop : MainLoop) (on : e.mainLoop = some loop) (labels : LabelSet) (route : Route)
      (events : List Group.Event)
      (eq : g' = Group.run
        { labels, route, serial := e.created, isCancelled := loop.isCancelled } events)

/-- After an alert was sorted in, its group has it, and the others are as they were. -/
theorem mem_allGroups_sort (hk : e.groups.Keyed) {m : Moment} {c : Bool} {a : Alert} {r : Route}
    {g : Group} (h : g ∈ (sort m c a e r).allGroups) :
    g = (e.taker m c a.labels r).insert m.wall a ∨ g ∈ e.allGroups := by
  have hsort := sort_eq e m c a r
  rcases mem_allGroups.1 h with ⟨id, fp, hg⟩ | ⟨run, hg⟩ | hg
  · rw [find?_sort hk] at hg
    split at hg
    · cases hg
      exact .inl rfl
    · exact .inr (mem_allGroups.2 (.inl ⟨id, fp, hg⟩))
  · rw [hsort] at hg
    exact .inr (mem_allGroups.2 (.inr (.inl ⟨run, hg⟩)))
  · rw [hsort] at hg
    exact .inr (mem_allGroups.2 (.inr (.inr hg)))

theorem origin_sort (hk : e.groups.Keyed) {loop : MainLoop} (on : e.mainLoop = some loop)
    {m : Moment} {a : Alert} {r : Route} {g' : Group}
    (h : g' ∈ (sort m loop.isCancelled a e r).allGroups) : Origin e g' := by
  rcases mem_allGroups_sort hk h with rfl | hold
  · unfold taker
    cases hf : e.groups.find? r.id (r.grouping a.labels).fingerprint with
    | some g =>
      exact .carried g (mem_allGroups.2 (.inl ⟨_, _, hf⟩)) (.inr ⟨.insert m.wall a, rfl⟩)
    | none =>
      exact .created loop on (r.grouping a.labels) r
        [.start m.tick e.settings.minGroupInterval, .insert m.wall a] rfl
  · exact .carried g' hold (.inl rfl)

/-- **Where the groups come from**: from groups that were there, or the main loop creates them. -/
theorem origin_react (hk : e.groups.Keyed) (x : Event) {g' : Group}
    (h : g' ∈ (e.react x).allGroups) : Origin e g' := by
  have stays : g' ∈ e.allGroups → Origin e g' := fun h => .carried g' h (.inl rfl)
  have hx := reacted e x
  generalize e.react x = e' at h hx
  cases hx with
  | idle => exact stays h
  | begun tick off => exact stays (mem_allGroups_begin h)
  | sorted loop on free m a route => exact origin_sort hk on h
  | finished loop on free => exact stays (mem_allGroups_endLoop h)
  | stepped s =>
    obtain ⟨g, hg, hm⟩ := moved_step h
    exact .carried g hg hm.carried

end AlertFlow.Engine
