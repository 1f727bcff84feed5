import AlertFlow.Proofs.Group.Bookkeeping

/-!
Runs of a group in time. In a course each event has its moment, and time passes only as far as the
group lets it: a timer that is due fires before, and a wake-up is taken notice of before. Which of
the events that are possible at one tick comes first is left open, and so is how long a delivery
takes and how it ends.
-/
namespace AlertFlow.Group

/-- Events, each with the moment at which it happens. -/
abbrev Course := List (Moment × Event)

/-- The group after a course. -/
def after (g : Group) (c : Course) : Group := g.run (c.map Prod.snd)

/-- What is noted during a course. -/
def notes (g : Group) (c : Course) : List Note := g.history (c.map Prod.snd)

/-- The tick that a course which began at a tick has come to. -/
def Course.clock (now : Nat) (c : Course) : Nat := c.foldl (fun _ x => x.1.tick) now

/-- A course that ends with the start of the timer. -/
def Course.started (early : Course) (m : Moment) (minInterval : Duration) : Course :=
  early ++ [(m, .start m.tick minInterval)]

/-- Where an event of a course stands that has the start of the timer among its events. -/
theorem append_cons_eq {α : Type} {early late b c : List α} {x y : α}
    (h : early ++ y :: late = b ++ x :: c) :
    (∃ c', early = b ++ x :: c' ∧ c = c' ++ y :: late) ∨ (b = early ∧ x = y ∧ c = late) ∨
      ∃ b', b = early ++ y :: b' ∧ late = b' ++ x :: c := by
  rcases List.append_eq_append_iff.1 h with ⟨_ | ⟨z, b'⟩, hb, hc⟩ | ⟨_ | ⟨z, c'⟩, hb, hc⟩
  · obtain ⟨rfl, rfl⟩ := List.cons.inj hc
    exact .inr (.inl ⟨by simpa using hb, rfl, rfl⟩)
  · obtain ⟨rfl, rfl⟩ := List.cons.inj hc
    exact .inr (.inr ⟨b', hb, rfl⟩)
  · obtain ⟨rfl, rfl⟩ := List.cons.inj hc
    exact .inr (.inl ⟨by simpa using hb.symm, rfl, rfl⟩)
  · obtain ⟨rfl, rfl⟩ := List.cons.inj hc
    exact .inl ⟨c', hb, rfl⟩

theorem after_append (g : Group) (c d : Course) : g.after (c ++ d) = (g.after c).after d := by
  simp [after, run]

theorem notes_cons (g : Group) (x : Moment × Event) (c : Course) :
    g.notes (x :: c) = (g.note? x.2).toList ++ (g.react x.2).notes c := rfl

theorem notes_append (g : Group) (c d : Course) :
    g.notes (c ++ d) = g.notes c ++ (g.after c).notes d := by
  induction c generalizing g with
  | nil => rfl
  | cons x c ih => simp [notes_cons, ih, after, run]

theorem after_concat (g : Group) (c : Course) (x : Moment × Event) :
    g.after (c ++ [x]) = (g.after c).react x.2 := by
  simp [after, run]

theorem notes_concat (g : Group) (c : Course) (x : Moment × Event) :
    g.notes (c ++ [x]) = g.notes c ++ ((g.after c).note? x.2).toList := by
  rw [notes_append]
  simp [notes, history]

theorem after_started (g : Group) (early : Course) (m : Moment) (minInterval : Duration) :
    g.after (early.started m minInterval) = (g.after early).start m.tick minInterval :=
  after_concat g early _

theorem notes_started (g : Group) (early : Course) (m : Moment) (minInterval : Duration) :
    g.notes (early.started m minInterval) = g.notes early := by
  simp [Course.started, notes_concat, note?]

@[simp] theorem route_after (g : Group) (c : Course) : (g.after c).route = g.route :=
  (persists_run g _).route

@[simp] theorem Course.clock_concat (now : Nat) (c : Course) (x : Moment × Event) :
    Course.clock now (c ++ [x]) = x.1.tick := by
  simp [Course.clock]

/-- Whether a flush has taken its snapshot and has not ended. -/
def isDelivering (g : Group) (number : Nat) : Bool :=
  (g.flush? number).any (·.snapshot.isSome)

/-- Whether an event can happen at a moment, at a group that is started once and never cancelled,
and whose flushes all come from its timer. A flush ends only after it has taken its snapshot. -/
def Admits (g : Group) (m : Moment) : Event → Prop
  | .insert now _ => now = m.wall
  | .start tick _ => tick = m.tick ∧ g.timer = .unstarted
  | .openFlush _ _ => False
  | .cancel => False
  | .step (.wake tick) => tick = m.tick
  | .step (.fire m') => m'.tick = m.tick ∧ m'.wall = m.wall
  | .step (.beginFlush _) => True
  | .step (.endFlush number _) => g.isDelivering number = true
  | .step .endTimer => True

instance (g : Group) (m : Moment) : (e : Event) → Decidable (g.Admits m e)
  | .insert _ _ => inferInstanceAs (Decidable (_ = _))
  | .start _ _ => inferInstanceAs (Decidable (_ ∧ _))
  | .openFlush _ _ => inferInstanceAs (Decidable False)
  | .cancel => inferInstanceAs (Decidable False)
  | .step (.wake _) => inferInstanceAs (Decidable (_ = _))
  | .step (.fire _) => inferInstanceAs (Decidable (_ ∧ _))
  | .step (.beginFlush _) => inferInstanceAs (Decidable True)
  | .step (.endFlush _ _) => inferInstanceAs (Decidable (_ = true))
  | .step .endTimer => inferInstanceAs (Decidable True)

/-- Whether the timer lets time pass up to a tick: it is not due before, and has not been woken. -/
def timerLets (g : Group) (tick : Nat) : Bool :=
  match g.timer with
  | .armed due => decide (tick ≤ due) && !g.isWoken
  | _ => true

/-- Whether time can pass from one tick to another, by a rule on how far a group lets it. -/
def Passes (lets : Group → Nat → Bool) (g : Group) (now tick : Nat) : Prop :=
  now ≤ tick ∧ (now < tick → lets g tick = true)

instance (lets : Group → Nat → Bool) (g : Group) (now tick : Nat) :
    Decidable (g.Passes lets now tick) :=
  inferInstanceAs (Decidable (_ ∧ _))

/-- Whether a course can take place, from one tick to another. -/
def Prompt (lets : Group → Nat → Bool) (last : Nat) : Group → Nat → Course → Prop
  | g, now, [] => g.Passes lets now last
  | g, now, (m, e) :: c =>
    g.Passes lets now m.tick ∧ g.Admits m e ∧ Prompt lets last (g.react e) m.tick c

instance decidablePrompt (lets : Group → Nat → Bool) (last : Nat) :
    (g : Group) → (now : Nat) → (c : Course) → Decidable (Prompt lets last g now c)
  | g, now, [] => inferInstanceAs (Decidable (g.Passes lets now last))
  | g, _, (m, e) :: c =>
    have := decidablePrompt lets last (g.react e) m.tick c
    inferInstanceAs (Decidable (_ ∧ _ ∧ _))

section Prompt

variable {lets : Group → Nat → Bool} {last now : Nat} {g : Group} {c d : Course}

/-- The rest of a course takes place from where the first part has led. -/
theorem Prompt.drop (h : Prompt lets last g now (c ++ d)) :
    Prompt lets last (g.after c) (c.clock now) d := by
  induction c generalizing g now with
  | nil => exact h
  | cons x c ih => exact ih h.2.2

/-- The first part of a course takes place up to the event that follows it. -/
theorem Prompt.take {x : Moment × Event} (h : Prompt lets last g now (c ++ x :: d)) :
    Prompt lets x.1.tick g now c := by
  induction c generalizing g now with
  | nil => exact h.1
  | cons y c ih => exact ⟨h.1, h.2.1, ih h.2.2⟩

theorem Prompt.le_last (h : Prompt lets last g now c) : now ≤ last := by
  induction c generalizing g now with
  | nil => exact h.1
  | cons x c ih => exact Nat.le_trans h.1.1 (ih h.2.2)

/-- Time does not go back. -/
theorem Prompt.le_tick (h : Prompt lets last g now c) {x : Moment × Event} (hx : x ∈ c) :
    now ≤ x.1.tick := by
  induction c generalizing g now with
  | nil => cases hx
  | cons y c ih =>
    rcases List.mem_cons.1 hx with rfl | hx
    · exact h.1.1
    · exact Nat.le_trans h.1.1 (ih h.2.2 hx)

theorem Prompt.tick_le_last (h : Prompt lets last g now c) {x : Moment × Event} (hx : x ∈ c) :
    x.1.tick ≤ last := by
  induction c generalizing g now with
  | nil => cases hx
  | cons y c ih =>
    rcases List.mem_cons.1 hx with rfl | hx
    · exact h.2.2.le_last
    · exact ih h.2.2 hx

end Prompt

/-! ## A running timer -/

section Operations

variable {g : Group} {m : Moment} {due tick : Nat}

theorem wake_of_woken (armed : g.timer = .armed due) (woken : g.isWoken = true) :
    g.wake tick = { g with isWoken := false, timer := .armed tick } := by
  simp [wake, armed, woken]

theorem wake_of_not_woken (woken : g.isWoken = false) : g.wake tick = g := by
  unfold wake
  split
  · rw [woken]
    rfl
  · rfl

theorem fire_of_le (armed : g.timer = .armed due) (le : due ≤ m.tick)
    (fits : g.interval.exceedsClock = false) :
    g.fire m = { g.openFlush m.wall (m.tick + g.interval.ticks) with
      isWoken := false, timer := .armed (m.tick + g.interval.ticks) } := by
  simp [fire, armed, le, fits]

theorem fire_of_lt (armed : g.timer = .armed due) (lt : m.tick < due) : g.fire m = g := by
  simp [fire, armed, Nat.not_le.2 lt]

theorem start_of_unstarted {minInterval : Duration} (unstarted : g.timer = .unstarted)
    (fits : g.route.options.groupWait.exceedsClock = false) :
    g.start tick minInterval = { g with
      minInterval, timer := .armed (tick + g.route.options.groupWait.ticks) } := by
  simp [start, unstarted, fits]

/-- Flushes that begin and end leave the timer alone. -/
theorem beginFlush_eq (g : Group) (number : Nat) :
    ∃ fs, g.beginFlush number = { g with flushes := fs } := by
  unfold beginFlush
  split
  · dsimp only
    split <;> exact ⟨_, rfl⟩
  · exact ⟨_, rfl⟩

theorem endFlush_eq (g : Group) (number : Nat) (delivered : Bool) :
    ∃ fs b, g.endFlush number delivered = { g with flushes := fs, holdings := b } := by
  unfold endFlush
  split
  · split
    · split <;> exact ⟨_, _, rfl⟩
    · exact ⟨_, _, rfl⟩
  · exact ⟨_, _, rfl⟩

end Operations

/-- What an event does to a group whose timer is running. -/
inductive Turn (g : Group) (m : Moment) (due : Nat) : Event → Group → Prop where
  | inserted (now : Instant) (a : Alert) : Turn g m due (.insert now a) (g.insert now a)
  /-- The timer takes notice of a wake-up. -/
  | noticed (tick : Nat) (woken : g.isWoken = true) :
      Turn g m due (.step (.wake tick)) { g with isWoken := false, timer := .armed m.tick }
  | fired (m' : Moment) (le : due ≤ m.tick) :
      Turn g m due (.step (.fire m')) { g.openFlush m'.wall (m.tick + g.interval.ticks) with
        isWoken := false, timer := .armed (m.tick + g.interval.ticks) }
  | begun (number : Nat) : Turn g m due (.step (.beginFlush number)) (g.beginFlush number)
  | ended (number : Nat) (delivered : Bool) (delivering : g.isDelivering number = true) :
      Turn g m due (.step (.endFlush number delivered)) (g.endFlush number delivered)
  | idle (s : Step) : Turn g m due (.step s) g

theorem turn_react {g : Group} {m : Moment} {due : Nat} {e : Event} (live : g.isCancelled = false)
    (armed : g.timer = .armed due) (fits : g.interval.exceedsClock = false) (he : g.Admits m e) :
    Turn g m due e (g.react e) := by
  rcases e with ⟨now, a⟩ | ⟨tick, minInterval⟩ | _ | _ | (tick | m' | number | ⟨number, d⟩ | _)
  · exact .inserted now a
  · obtain ⟨-, unstarted⟩ := he
    rw [armed] at unstarted
    cases unstarted
  · cases he
  · cases he
  · obtain rfl : tick = m.tick := he
    cases hw : g.isWoken with
    | true =>
      rw [react, step, wake_of_woken armed hw]
      exact .noticed _ hw
    | false =>
      rw [react, step, wake_of_not_woken hw]
      exact .idle _
  · obtain ⟨htick, -⟩ : m'.tick = m.tick ∧ m'.wall = m.wall := he
    rcases Nat.lt_or_ge m.tick due with lt | le
    · rw [react, step, fire_of_lt armed (htick ▸ lt)]
      exact .idle _
    · rw [react, step, fire_of_le armed (htick ▸ le) fits, htick]
      exact .fired m' le
  · exact .begun number
  · exact .ended number d he
  · have : g.endTimer = g := by simp [endTimer, live]
    rw [react, step, this]
    exact .idle _

/-- A group in a course whose timer is running at an interval, with what was noted so far. -/
structure Running (interval : Duration) (g : Group) (h : List Note) : Prop where
  live : g.isCancelled = false
  paced : g.interval = interval
  fits : interval.exceedsClock = false
  armed : ∃ due, g.timer = .armed due
  ledger : Ledger g.holdings g.flushes g.nextFlush h

section Running

variable {interval : Duration} {g : Group} {h : List Note} {m : Moment} {e : Event}

theorem Running.turn (hr : Running interval g h) (he : g.Admits m e) :
    ∃ due, g.timer = .armed due ∧ Turn g m due e (g.react e) := by
  obtain ⟨due, armed⟩ := hr.armed
  exact ⟨due, armed, turn_react hr.live armed (hr.paced ▸ hr.fits) he⟩

theorem Running.react (hr : Running interval g h) (he : g.Admits m e) :
    Running interval (g.react e) (h ++ (g.note? e).toList) := by
  have hl := hr.ledger.change (change_react g e)
  obtain ⟨due, armed, ht⟩ := hr.turn he
  generalize g.react e = g' at hl ht
  cases ht with
  | inserted => exact ⟨hr.live, hr.paced, hr.fits, ⟨due, armed⟩, hl⟩
  | noticed | fired => exact ⟨hr.live, hr.paced, hr.fits, ⟨_, rfl⟩, hl⟩
  | begun number =>
    obtain ⟨fs, heq⟩ := beginFlush_eq g number
    rw [heq] at hl ⊢
    exact ⟨hr.live, hr.paced, hr.fits, ⟨due, armed⟩, hl⟩
  | ended number delivered =>
    obtain ⟨fs, b, heq⟩ := endFlush_eq g number delivered
    rw [heq] at hl ⊢
    exact ⟨hr.live, hr.paced, hr.fits, ⟨due, armed⟩, hl⟩
  | idle => exact ⟨hr.live, hr.paced, hr.fits, ⟨due, armed⟩, hl⟩

/-- Once its timer runs, a group goes on running. -/
theorem Running.course {lets : Group → Nat → Bool} {last now : Nat} {c d : Course}
    (hr : Running interval g h) (hp : Prompt lets last g now (c ++ d)) :
    Running interval (g.after c) (h ++ g.notes c) := by
  induction c generalizing g h now with
  | nil => simpa [notes, history, after, run] using hr
  | cons x c ih =>
    rw [notes_cons, ← List.append_assoc]
    exact ih (hr.react hp.2.1) hp.2.2

end Running

/-! ## A timer that is yet to be started -/

/-- A group in a course whose timer has not been started, with what was noted so far. -/
structure Waiting (g : Group) (h : List Note) : Prop where
  live : g.isCancelled = false
  unstarted : g.timer = .unstarted
  /-- No flush has been set out on. -/
  idle : g.flushes = []
  ledger : Ledger g.holdings g.flushes g.nextFlush h

section Waiting

variable {g : Group} {h : List Note} {m : Moment} {e : Event}

/-- What is done to a group before its timer is started: alerts are inserted, and nothing else. -/
theorem Waiting.react_eq (hw : Waiting g h) (still : (g.react e).timer = .unstarted)
    (he : g.Admits m e) :
    (∃ now a, e = .insert now a) ∨ (∃ s, e = .step s) ∧ g.react e = g := by
  rcases e with ⟨now, a⟩ | ⟨tick, minInterval⟩ | _ | _ | s
  · exact .inl ⟨now, a, rfl⟩
  · simp only [react, start, hw.unstarted] at still
    split at still <;> cases still
  · cases he
  · cases he
  · refine .inr ⟨⟨s, rfl⟩, ?_⟩
    cases s with
    | wake | fire => simp [react, step, wake, fire, hw.unstarted]
    | beginFlush | endFlush => simp [react, step, beginFlush, endFlush, flush?, hw.idle]
    | endTimer => simp [react, step, endTimer, hw.live]

theorem Waiting.react (hw : Waiting g h) (still : (g.react e).timer = .unstarted)
    (he : g.Admits m e) : Waiting (g.react e) (h ++ (g.note? e).toList) := by
  have hl := hw.ledger.change (change_react g e)
  rcases hw.react_eq still he with ⟨now, a, rfl⟩ | ⟨-, heq⟩
  · exact ⟨hw.live, hw.unstarted, hw.idle, hl⟩
  · rw [heq] at hl ⊢
    exact ⟨hw.live, hw.unstarted, hw.idle, hl⟩

/-- A timer that is started later was not started before. -/
theorem unstarted_of_after {c : Course} (h : (g.after c).timer = .unstarted) :
    g.timer = .unstarted := by
  by_contra hne
  exact (persists_run g _).started hne h

/-- Up to its start, the timer of a group has not been started. -/
theorem Waiting.course {lets : Group → Nat → Bool} {last now : Nat} {c d : Course}
    (hw : Waiting g h) (hp : Prompt lets last g now (c ++ d))
    (still : (g.after c).timer = .unstarted) : Waiting (g.after c) (h ++ g.notes c) := by
  induction c generalizing g h now with
  | nil => simpa [notes, history, after, run] using hw
  | cons x c ih =>
    rw [notes_cons, ← List.append_assoc]
    exact ih (hw.react (unstarted_of_after still) hp.2.1) hp.2.2 still

theorem Waiting.new (labels : LabelSet) (route : Route) (serial : Nat) :
    Waiting { labels, route, serial } [] :=
  ⟨rfl, rfl, rfl, .start⟩

end Waiting

/-! ## The start of the timer -/

section Start

variable {lets : Group → Nat → Bool} {g : Group} {last now : Nat} {early late : Course}
  {m₀ : Moment} {minInterval : Duration}

/-- What the start of its timer finds of a new group. -/
theorem Waiting.before_start (hw : Waiting g [])
    (prompt : Prompt lets last g now (early.started m₀ minInterval ++ late)) :
    Waiting (g.after early) (g.notes early) := by
  rw [Course.started, List.append_assoc] at prompt
  obtain ⟨-, ⟨-, unstarted⟩, -⟩ := prompt.drop
  exact hw.course prompt unstarted

theorem Prompt.after_start
    (prompt : Prompt lets last g now (early.started m₀ minInterval ++ late)) :
    Prompt lets last (g.after (early.started m₀ minInterval)) m₀.tick late := by
  have hd := prompt.drop
  rwa [Course.started, Course.clock_concat] at hd

/-- The timer of a group runs from its start on. -/
theorem Waiting.running (hw : Waiting g [])
    (prompt : Prompt lets last g now (early.started m₀ minInterval ++ late))
    (wait : g.route.options.groupWait.exceedsClock = false)
    (fits : (g.route.options.groupInterval.max minInterval).exceedsClock = false) :
    Running (g.route.options.groupInterval.max minInterval)
      (g.after (early.started m₀ minInterval)) (g.notes (early.started m₀ minInterval)) := by
  have hw := hw.before_start prompt
  have hr : (g.after early).route = g.route := route_after g early
  rw [after_started, notes_started, start_of_unstarted hw.unstarted (hr ▸ wait), ← hr]
  exact ⟨hw.live, rfl, hr ▸ fits, ⟨_, rfl⟩, hw.ledger⟩

end Start

end AlertFlow.Group
