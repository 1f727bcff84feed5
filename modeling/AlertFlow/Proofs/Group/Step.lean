import AlertFlow.Group

/-!
Runs of a group. What its timer and its flushes do of their own accord are the steps; together with
what is done to the group from outside they are the events, and any list of events is a run: an
event that cannot happen where it stands changes nothing. What an event does to the alerts and the
flushes of the group is said once, by `Change`, and every property of runs is derived from that.
-/
namespace AlertFlow.Group

/-- What happens at a group of its own accord. -/
inductive Step where
  | wake (tick : Nat)
  | fire (m : Moment)
  | beginFlush (number : Nat)
  | endFlush (number : Nat) (delivered : Bool)
  | endTimer

/-- Takes a step. -/
def step (g : Group) : Step → Group
  | .wake tick => g.wake tick
  | .fire m => g.fire m
  | .beginFlush number => g.beginFlush number
  | .endFlush number delivered => g.endFlush number delivered
  | .endTimer => g.endTimer

/-- What happens at a group or is done to it. -/
inductive Event where
  | insert (now : Instant) (a : Alert)
  | start (tick : Nat) (minInterval : Duration)
  /-- A flush that does not wait for the timer. -/
  | openFlush (now : Instant) (deadline : Nat)
  | cancel
  | step (s : Step)

/-- Lets an event happen. -/
def react (g : Group) : Event → Group
  | .insert now a => g.insert now a
  | .start tick minInterval => g.start tick minInterval
  | .openFlush now deadline => g.openFlush now deadline
  | .cancel => g.cancel
  | .step s => g.step s

/-- Lets events happen one after another. -/
def run (g : Group) (events : List Event) : Group := events.foldl react g

theorem run_append (g : Group) (es : List Event) (e : Event) :
    g.run (es ++ [e]) = (g.run es).react e := by
  simp [run]

/-! ## The history of a run -/

/-- What a run did to the alerts of a group. -/
inductive Note where
  | inserted (a : Alert)
  /-- The flush of this number, fired at this time, took a snapshot with alerts. -/
  | taken (number : Nat) (now : Instant)
  /-- The delivery of the flush of this number succeeded. -/
  | delivered (number : Nat)
deriving DecidableEq

/-- What is noted of an event that is about to happen. A flush that finds nothing or finds the group
cancelled takes no snapshot, and a delivery only counts while the group is not cancelled. -/
def note? (g : Group) : Event → Option Note
  | .insert _ a => some (.inserted a)
  | .step (.beginFlush number) =>
    match g.flush? number with
    | some { snapshot := none, context, .. } =>
      if g.holdings.snapshot.isEmpty || g.isCancelled then none
      else some (.taken number context.now)
    | _ => none
  | .step (.endFlush number true) =>
    match g.flush? number with
    | some { snapshot := some _, .. } => if g.isCancelled then none else some (.delivered number)
    | _ => none
  | _ => none

/-- What is noted during a run, oldest first. -/
def history : Group → List Event → List Note
  | _, [] => []
  | g, e :: es => (g.note? e).toList ++ history (g.react e) es

theorem history_append (g : Group) (es : List Event) (e : Event) :
    g.history (es ++ [e]) = g.history es ++ ((g.run es).note? e).toList := by
  induction es generalizing g with
  | nil => simp [history, run]
  | cons d es ih => simp [history, run, ih]

/-! ## What an event changes -/

/-- The wall time of an event that has one. -/
def Event.wall? : Event → Option Instant
  | .insert now _ => some now
  | .openFlush now _ => some now
  | .step (.fire m) => some m.wall
  | _ => none

/-- What an event may do to the alerts and the flushes of a group, with what is noted of it. -/
inductive Change (e : Event) (g g' : Group) : Option Note → Prop where
  | kept (holdings : g'.holdings = g.holdings) (flushes : g'.flushes = g.flushes)
      (next : g'.nextFlush = g.nextFlush) : Change e g g' none
  | inserted (a : Alert) (holdings : g'.holdings = g.holdings.insert a)
      (flushes : g'.flushes = g.flushes) (next : g'.nextFlush = g.nextFlush) :
      Change e g g' (some (.inserted a))
  | opened (f : Flush) (number : f.number = g.nextFlush) (snapshot : f.snapshot = none)
      (fired : e.wall? = some f.context.now) (holdings : g'.holdings = g.holdings)
      (flushes : g'.flushes = g.flushes ++ [f]) (next : g'.nextFlush = g.nextFlush + 1) :
      Change e g g' none
  | taken (f : Flush) (mem : f ∈ g.flushes) (waiting : f.snapshot = none)
      (holdings : g'.holdings = g.holdings)
      (flushes : g'.flushes = g.flushes.map (·.take f.number g.holdings.snapshot))
      (next : g'.nextFlush = g.nextFlush) : Change e g g' (some (.taken f.number f.context.now))
  | delivered (f : Flush) (s : Snapshot) (mem : f ∈ g.flushes) (snapshot : f.snapshot = some s)
      (holdings : g'.holdings = g.holdings.settle s f.context.now)
      (flushes : g'.flushes = g.flushes.filter (·.number ≠ f.number))
      (next : g'.nextFlush = g.nextFlush) : Change e g g' (some (.delivered f.number))
  | dropped (number : Nat) (holdings : g'.holdings = g.holdings)
      (flushes : g'.flushes = g.flushes.filter (·.number ≠ number))
      (next : g'.nextFlush = g.nextFlush) : Change e g g' none

theorem flush?_eq_some {g : Group} {number : Nat} {f : Flush} (h : g.flush? number = some f) :
    f ∈ g.flushes ∧ f.number = number :=
  ⟨List.mem_of_find?_eq_some h, by simpa using List.find?_some h⟩

theorem change_fire (g : Group) (m : Moment) :
    Change (.step (.fire m)) g (g.fire m) none := by
  unfold fire
  split
  · split
    · split
      · exact .kept rfl rfl rfl
      · exact .opened { number := g.nextFlush, context := g.contextAt m.wall, deadline := _ }
          rfl rfl rfl rfl rfl rfl
    · exact .kept rfl rfl rfl
  · exact .kept rfl rfl rfl

theorem change_beginFlush (g : Group) (number : Nat) :
    Change (.step (.beginFlush number)) g (g.beginFlush number)
      (g.note? (.step (.beginFlush number))) := by
  rcases hf : g.flush? number with _ | ⟨n, context, deadline, _ | s⟩
  · simp only [beginFlush, note?, hf]
    exact .kept rfl rfl rfl
  · obtain ⟨hmem, rfl⟩ := flush?_eq_some hf
    simp only [beginFlush, note?, hf]
    split
    · exact .dropped n rfl rfl rfl
    · exact .taken ⟨n, context, deadline, none⟩ hmem rfl rfl rfl rfl
  · simp only [beginFlush, note?, hf]
    exact .kept rfl rfl rfl

theorem change_endFlush (g : Group) (number : Nat) (delivered : Bool) :
    Change (.step (.endFlush number delivered)) g (g.endFlush number delivered)
      (g.note? (.step (.endFlush number delivered))) := by
  rcases hf : g.flush? number with _ | ⟨n, context, deadline, _ | s⟩
  · cases delivered <;> simp only [endFlush, note?, hf] <;> exact .kept rfl rfl rfl
  · cases delivered <;> simp only [endFlush, note?, hf] <;> exact .dropped number rfl rfl rfl
  · obtain ⟨hmem, rfl⟩ := flush?_eq_some hf
    cases delivered with
    | false => simpa [endFlush, note?, hf] using .dropped n rfl rfl rfl
    | true =>
      cases hc : g.isCancelled with
      | true => simpa [endFlush, note?, hf, hc] using .dropped n rfl rfl rfl
      | false =>
        simpa [endFlush, note?, hf, hc] using
          .delivered ⟨n, context, deadline, some s⟩ s hmem rfl rfl rfl rfl

/-- **What an event does**: one of the changes, the one that is noted. -/
theorem change_react (g : Group) (e : Event) : Change e g (g.react e) (g.note? e) := by
  cases e with
  | insert now a => exact .inserted a rfl rfl rfl
  | start tick minInterval =>
    simp only [react, start, note?]
    split <;> exact .kept rfl rfl rfl
  | openFlush now deadline =>
    exact .opened { number := g.nextFlush, context := g.contextAt now, deadline } rfl rfl rfl
      rfl rfl rfl
  | cancel => exact .kept rfl rfl rfl
  | step s =>
    cases s with
    | wake tick =>
      simp only [react, step, wake, note?]
      split
      · split <;> exact .kept rfl rfl rfl
      · exact .kept rfl rfl rfl
    | fire m => exact change_fire g m
    | beginFlush number => exact change_beginFlush g number
    | endFlush number delivered => exact change_endFlush g number delivered
    | endTimer =>
      simp only [react, step, endTimer, note?]
      split <;> exact .kept rfl rfl rfl

/-- What a group does of its own accord is no insertion. -/
theorem note?_step_ne_inserted (g : Group) (s : Step) (a : Alert) :
    g.note? (.step s) ≠ some (.inserted a) := by
  intro h
  rcases s with _ | _ | number | ⟨number, _ | _⟩ | _
  · cases h
  · cases h
  · simp only [note?] at h
    split at h
    · split at h <;> cases h
    · cases h
  · cases h
  · simp only [note?] at h
    split at h
    · split at h <;> cases h
    · cases h
  · cases h

/-- What no event undoes: what a group is the group of, that its timer was started, and that it was
cancelled. -/
structure Persists (g g' : Group) : Prop where
  labels : g'.labels = g.labels
  route : g'.route = g.route
  serial : g'.serial = g.serial
  started : g.timer ≠ .unstarted → g'.timer ≠ .unstarted
  cancelled : g.isCancelled = true → g'.isCancelled = true

theorem Persists.refl (g : Group) : Persists g g := ⟨rfl, rfl, rfl, id, id⟩

theorem Persists.trans {g g' g'' : Group} (h : Persists g g') (h' : Persists g' g'') :
    Persists g g'' where
  labels := h'.labels.trans h.labels
  route := h'.route.trans h.route
  serial := h'.serial.trans h.serial
  started := h'.started ∘ h.started
  cancelled := h'.cancelled ∘ h.cancelled

theorem persists_react (g : Group) (e : Event) : Persists g (g.react e) := by
  rcases e with _ | _ | _ | _ | (_ | m | number | ⟨number, delivered⟩ | _)
  · exact ⟨rfl, rfl, rfl, id, id⟩
  · simp only [react, start]
    split
    · next unstarted => exact ⟨rfl, rfl, rfl, absurd unstarted, id⟩
    · exact .refl g
  · exact ⟨rfl, rfl, rfl, id, id⟩
  · exact ⟨rfl, rfl, rfl, id, fun _ => rfl⟩
  · simp only [react, step, wake]
    split
    · split
      · exact ⟨rfl, rfl, rfl, by simp, id⟩
      · exact .refl g
    · exact .refl g
  · simp only [react, step, fire]
    split
    · split
      · split <;> exact ⟨rfl, rfl, rfl, by simp, id⟩
      · exact .refl g
    · exact .refl g
  · simp only [react, step, beginFlush]
    split
    · split <;> exact ⟨rfl, rfl, rfl, id, id⟩
    · exact .refl g
  · simp only [react, step, endFlush]
    split
    · split
      · split <;> exact ⟨rfl, rfl, rfl, id, id⟩
      · exact ⟨rfl, rfl, rfl, id, id⟩
    · exact .refl g
  · simp only [react, step, endTimer]
    split
    · exact ⟨rfl, rfl, rfl, by simp, id⟩
    · exact .refl g

theorem persists_run (g : Group) (events : List Event) : Persists g (g.run events) := by
  induction events generalizing g with
  | nil => exact .refl g
  | cons e es ih => exact (persists_react g e).trans (ih (g.react e))

@[simp] theorem labels_react (g : Group) (e : Event) : (g.react e).labels = g.labels :=
  (persists_react g e).labels

@[simp] theorem route_react (g : Group) (e : Event) : (g.react e).route = g.route :=
  (persists_react g e).route

@[simp] theorem serial_react (g : Group) (e : Event) : (g.react e).serial = g.serial :=
  (persists_react g e).serial

/-! ## Data for runs on fixed inputs -/

/-- A route with these timings. -/
def timedRoute (groupWait groupInterval : Duration) : Route where
  id := .ofNat 1
  options := { receiver := "ops", groupWait, groupInterval, repeatInterval := .ofSecs 14400 }
  matchers := .empty
  continues := false
  children := []

/-- A new group of a route. -/
def newAt (route : Route) : Group := { labels := .empty, route, serial := 0 }

/-- An alert of a name that started some seconds after the epoch. -/
def alertFrom (name : String) (secs : Int) : Alert where
  labels := .ofList [("alertname", name)]
  startsAt := ⟨secs, 0⟩

/-- An alert that has another label beside its name. -/
def zonedAlert : Alert where
  labels := .ofList [("alertname", "A"), ("zone", "eu")]
  startsAt := ⟨0, 0⟩

/-- The moment some seconds after the epoch, when the ticks began. -/
def secondsIn (secs : Nat) : Moment := ⟨secs * 1000, ⟨secs, 0⟩⟩

end AlertFlow.Group
