import AlertFlow.Proofs.Group.Cadence
import AlertFlow.Proofs.Group.Calls

/-!
How long flushes last. A firing gives its flush one interval and sets the timer one interval on,
counted from the same tick, so that a flush has ended when the timer next fires. A delivery that
takes longer is cut off and changes nothing. Only an escalation has the timer fire before, so only
an escalation makes two flushes overlap, and there are none once a delivery has succeeded.
-/
namespace AlertFlow.Group

/-! ## Courses with deliveries that complete -/

/-- Whether the timer and the flushes let time pass up to a tick: no flush is still to begin, and
none has to end before. A group that was cancelled lets no time pass until it has ended. -/
def endingsLet (g : Group) (tick : Nat) : Bool :=
  if g.isCancelled then g.hasEnded
  else g.timerLets tick && g.flushes.all fun f => f.snapshot.isSome && decide (tick ≤ f.deadline)

/-- Time passes up to what is due by itself. -/
theorem le_due {g : Group} {tick due : Nat} (live : g.isCancelled = false)
    (h : g.endingsLet tick = true) (hdue : due ∈ g.dueTicks) : tick ≤ due := by
  simp only [endingsLet, live, Bool.false_eq_true, if_false, Bool.and_eq_true, List.all_eq_true,
    decide_eq_true_eq] at h
  obtain ⟨htimer, hflushes⟩ := h
  rcases List.mem_append.1 hdue with hdue | hdue
  · cases armed : g.timer with
    | armed tick' =>
      rw [armed] at hdue
      obtain rfl := List.mem_singleton.1 hdue
      simp only [timerLets, armed, Bool.and_eq_true, decide_eq_true_eq] at htimer
      exact htimer.1
    | unstarted | ended =>
      rw [armed] at hdue
      cases hdue
  · obtain ⟨f, hf, rfl⟩ := List.mem_map.1 hdue
    exact (hflushes f hf).2

/-- While flushes are under way, no time passes at a cancelled group. -/
theorem flushes_of_endingsLet {g : Group} {tick : Nat} (cancelled : g.isCancelled = true)
    (h : g.endingsLet tick = true) : g.flushes = [] := by
  simp only [endingsLet, cancelled, if_true, hasEnded, Bool.and_eq_true, List.isEmpty_iff] at h
  exact h.1

/-- Whether an event can happen at a moment, at a group that may be cancelled, given the ticks at
which its deliveries complete. A delivery succeeds only after it has completed; it may be given up
at any time. -/
def Allows (done : Nat → Option Nat) (g : Group) (m : Moment) : Event → Prop
  | .cancel => True
  | .step (.endFlush number true) =>
    g.isDelivering number = true ∧ (done number).any (· ≤ m.tick) = true
  | e => g.Admits m e

instance (done : Nat → Option Nat) (g : Group) (m : Moment) : (e : Event) →
    Decidable (Allows done g m e)
  | .insert wall a => inferInstanceAs (Decidable (g.Admits m (.insert wall a)))
  | .start tick d => inferInstanceAs (Decidable (g.Admits m (.start tick d)))
  | .openFlush wall d => inferInstanceAs (Decidable (g.Admits m (.openFlush wall d)))
  | .cancel => inferInstanceAs (Decidable True)
  | .step (.wake tick) => inferInstanceAs (Decidable (g.Admits m (.step (.wake tick))))
  | .step (.fire m') => inferInstanceAs (Decidable (g.Admits m (.step (.fire m'))))
  | .step (.beginFlush n) => inferInstanceAs (Decidable (g.Admits m (.step (.beginFlush n))))
  | .step (.endFlush _ true) => inferInstanceAs (Decidable (_ ∧ _))
  | .step (.endFlush n false) =>
    inferInstanceAs (Decidable (g.Admits m (.step (.endFlush n false))))
  | .step .endTimer => inferInstanceAs (Decidable (g.Admits m (.step .endTimer)))

/-- Whether a course can take place, from one tick to another, where deliveries complete at the
given ticks. -/
def Elapses (done : Nat → Option Nat) (last : Nat) : Group → Nat → Course → Prop
  | g, now, [] => g.Passes endingsLet now last
  | g, now, (m, e) :: c =>
    g.Passes endingsLet now m.tick ∧ g.Allows done m e ∧ Elapses done last (g.react e) m.tick c

instance decidableElapses (done : Nat → Option Nat) (last : Nat) :
    (g : Group) → (now : Nat) → (c : Course) → Decidable (Elapses done last g now c)
  | g, now, [] => inferInstanceAs (Decidable (g.Passes endingsLet now last))
  | g, _, (m, e) :: c =>
    have := decidableElapses done last (g.react e) m.tick c
    inferInstanceAs (Decidable (_ ∧ _ ∧ _))

section Elapses

variable {done : Nat → Option Nat} {last now : Nat} {g : Group} {c d : Course}

theorem Elapses.drop (h : Elapses done last g now (c ++ d)) :
    Elapses done last (g.after c) (c.clock now) d := by
  induction c generalizing g now with
  | nil => exact h
  | cons x c ih => exact ih h.2.2

/-- The first part of a course takes place up to its last event. -/
theorem Elapses.take (h : Elapses done last g now (c ++ d)) :
    Elapses done (c.clock now) g now c := by
  induction c generalizing g now with
  | nil => exact ⟨Nat.le_refl _, fun hlt => absurd hlt (Nat.lt_irrefl _)⟩
  | cons x c ih => exact ⟨h.1, h.2.1, ih h.2.2⟩

theorem Elapses.le_last (h : Elapses done last g now c) : now ≤ last := by
  induction c generalizing g now with
  | nil => exact h.1
  | cons x c ih => exact Nat.le_trans h.1.1 (ih h.2.2)

/-- Time does not go back. -/
theorem Elapses.within (h : Elapses done last g now c) {x : Moment × Event} (hx : x ∈ c) :
    now ≤ x.1.tick ∧ x.1.tick ≤ last := by
  induction c generalizing g now with
  | nil => cases hx
  | cons y c ih =>
    rcases List.mem_cons.1 hx with rfl | hx
    · exact ⟨h.1.1, h.2.2.le_last⟩
    · obtain ⟨hle, hlast⟩ := ih h.2.2 hx
      exact ⟨Nat.le_trans h.1.1 hle, hlast⟩

theorem live_of_after (live : (g.after c).isCancelled = false) : g.isCancelled = false := by
  rw [← Bool.not_eq_true] at live ⊢
  exact fun hc => live ((persists_run g _).cancelled hc)

/-- As long as the group is not cancelled, the course is one of a running timer. -/
theorem Elapses.prompt (h : Elapses done last g now c)
    (live : (g.after c).isCancelled = false) : Prompt timerLets last g now c := by
  have lets : ∀ {g : Group} {now tick : Nat}, g.isCancelled = false →
      g.Passes endingsLet now tick → g.Passes timerLets now tick := by
    intro g now tick live hpass
    refine ⟨hpass.1, fun hlt => ?_⟩
    have := hpass.2 hlt
    simp only [endingsLet, live, Bool.false_eq_true, if_false, Bool.and_eq_true] at this
    exact this.1
  induction c generalizing g now with
  | nil => exact lets live h
  | cons x c ih =>
    obtain ⟨m, e⟩ := x
    obtain ⟨hpass, he, hrest⟩ := h
    have hlive : (g.react e).isCancelled = false := live_of_after live
    refine ⟨lets (live_of_after (c := [(m, e)]) hlive) hpass, ?_, ih hrest live⟩
    rcases e with _ | _ | _ | _ | (_ | _ | _ | ⟨_, _ | _⟩ | _)
    case cancel => cases hlive
    case step.endFlush.true => exact he.1
    all_goals exact he

end Elapses

theorem firings_append (g : Group) (c d : Course) :
    g.firings (c ++ d) = g.firings c ++ (g.after c).firings d :=
  (ticksWhere_append c d).trans (congrArg _ (ticksWhere_eq_of_state fires _ _ [] d))

/-! ## Flushes under way -/

section UnderWay

variable {g : Group} {c : Course} {n : Nat}

/-- Whether a flush of a number is under way. -/
def IsUnderWay (g : Group) (n : Nat) : Prop := ∃ f ∈ g.flushes, f.number = n

instance (g : Group) (n : Nat) : Decidable (g.IsUnderWay n) :=
  inferInstanceAs (Decidable (∃ f ∈ g.flushes, f.number = n))

theorem underWay_of_react {e : Event} (old : n < g.nextFlush) (h : (g.react e).IsUnderWay n) :
    g.IsUnderWay n := by
  obtain ⟨f, hf, rfl⟩ := h
  cases (change_react g e).flushOrigin hf with
  | kept f₀ mem number | taken f₀ mem number => exact ⟨f₀, mem, number.symm⟩
  | opened number => omega

/-- A flush that has ended stays ended. -/
theorem underWay_of_after (old : n < g.nextFlush) (h : (g.after c).IsUnderWay n) :
    g.IsUnderWay n := by
  induction c generalizing g with
  | nil => exact h
  | cons x c ih =>
    exact underWay_of_react old (ih (Nat.lt_of_lt_of_le old (nextFlush_le_react g x.2)) h)

theorem Passes.still {now tick : Nat} (h : g.Passes endingsLet now tick)
    (cancelled : g.isCancelled = true) (hn : g.IsUnderWay n) : tick = now := by
  by_contra hne
  have hlets := h.2 (Nat.lt_of_le_of_ne h.1 (Ne.symm hne))
  obtain ⟨f, hf, -⟩ := hn
  rw [flushes_of_endingsLet cancelled hlets] at hf
  cases hf

/-- At a cancelled group no time passes while a flush is under way. -/
theorem Elapses.still {done : Nat → Option Nat} {last now : Nat} (h : Elapses done last g now c)
    (cancelled : g.isCancelled = true) (old : n < g.nextFlush) (hn : (g.after c).IsUnderWay n) :
    last = now := by
  induction c generalizing g now with
  | nil => exact h.still cancelled hn
  | cons x c ih =>
    obtain ⟨hpass, -, hrest⟩ := h
    rw [← hpass.still cancelled (underWay_of_after old hn)]
    exact ih hrest ((persists_react g x.2).cancelled cancelled)
      (Nat.lt_of_lt_of_le old (nextFlush_le_react g x.2)) hn

end UnderWay

/-! ## The dates of flushes -/

section Dated

variable {done : Nat → Option Nat} {interval : Duration} {g : Group} {ts : List Nat} {m : Moment}
  {e : Event} {last now tick : Nat} {c : Course}

@[simp] theorem deadline_take (f : Flush) (n : Nat) (s : Snapshot) :
    (f.take n s).deadline = f.deadline := by
  unfold Flush.take
  split <;> rfl

/-- The timer of a group whose timer has been started keeps its interval. -/
theorem interval_react (started : g.timer ≠ .unstarted) (e : Event) :
    (g.react e).interval = g.interval := by
  have hmin : (g.react e).minInterval = g.minInterval := by
    rcases e with _ | _ | _ | _ | (_ | m | number | ⟨number, delivered⟩ | _)
    case start => simp only [react, start]
    case step.wake =>
      simp only [react, step, wake]
      split
      · split <;> rfl
      · rfl
    case step.fire =>
      simp only [react, step, fire]
      split
      · split
        · split <;> rfl
        · rfl
      · rfl
    case step.beginFlush =>
      obtain ⟨fs, heq⟩ := beginFlush_eq g number
      rw [react, step, heq]
    case step.endFlush =>
      obtain ⟨fs, b, heq⟩ := endFlush_eq g number delivered
      rw [react, step, heq]
    case step.endTimer =>
      simp only [react, step, endTimer]
      split <;> rfl
    all_goals rfl
  rw [interval, interval, route_react, hmin]

/-- What a firing does. -/
theorem fire_of_fires (hf : g.fires (.step (.fire m)) = true) :
    (∃ due, g.timer = .armed due) ∧ g.interval.exceedsClock = false ∧
      g.fire m = { g.openFlush m.wall (m.tick + g.interval.ticks) with
        isWoken := false, timer := .armed (m.tick + g.interval.ticks) } := by
  rw [fires, fire] at hf
  split at hf
  · next due armed =>
    split at hf
    · next hle =>
      split at hf
      · simp at hf
      · next hfits =>
        rw [Bool.not_eq_true] at hfits
        exact ⟨⟨due, armed⟩, hfits, fire_of_le armed hle hfits⟩
    · simp at hf
  · simp at hf

theorem eq_fire_of_fires (hf : g.fires e = true) : ∃ m', e = .step (.fire m') := by
  rcases e with _ | _ | _ | _ | (_ | m' | _ | _ | _)
  case step.fire => exact ⟨m', rfl⟩
  all_goals cases hf

theorem nextFlush_lt_of_fires (hf : g.fires e = true) : g.nextFlush < (g.react e).nextFlush := by
  obtain ⟨m', rfl⟩ := eq_fire_of_fires hf
  rw [react, step, (fire_of_fires hf).2.2]
  exact Nat.lt_succ_self _

/-- Short of a firing no flush is opened. -/
theorem nextFlush_of_quiet (he : g.Allows done m e) (quiet : g.fires e = false) :
    (g.react e).nextFlush = g.nextFlush := by
  rcases e with _ | _ | _ | _ | (_ | m' | number | ⟨number, delivered⟩ | _)
  case start =>
    simp only [react, start]
    split <;> rfl
  case openFlush => cases he
  case step.wake =>
    simp only [react, step, wake]
    split
    · split <;> rfl
    · rfl
  case step.fire => simpa [fires, react, step] using quiet
  case step.beginFlush =>
    obtain ⟨fs, heq⟩ := beginFlush_eq g number
    rw [react, step, heq]
  case step.endFlush =>
    obtain ⟨fs, b, heq⟩ := endFlush_eq g number delivered
    rw [react, step, heq]
  case step.endTimer =>
    simp only [react, step, endTimer]
    split <;> rfl
  all_goals rfl

/-- The flushes under way at a tick, by what they have been given: each one interval since its
firing, one of those so far. -/
structure Dated (interval : Duration) (g : Group) (ts : List Nat) (now : Nat) : Prop where
  started : g.timer ≠ .unstarted
  paced : g.interval = interval
  /-- The flushes are numbered as they are fired. -/
  count : g.nextFlush = ts.length
  fired : ∀ f ∈ g.flushes, ∃ t, ts[f.number]? = some t ∧ f.deadline = t + interval.ticks
  due : ∀ f ∈ g.flushes, now ≤ f.deadline

theorem Dated.pass (hd : Dated interval g ts now) (hpass : g.Passes endingsLet now tick) :
    Dated interval g ts tick where
  started := hd.started
  paced := hd.paced
  count := hd.count
  fired := hd.fired
  due := by
    intro f hf
    rcases Nat.eq_or_lt_of_le hpass.1 with rfl | hlt
    · exact hd.due f hf
    have hlets := hpass.2 hlt
    cases cancelled : g.isCancelled with
    | true =>
      rw [flushes_of_endingsLet cancelled hlets] at hf
      cases hf
    | false =>
      exact le_due cancelled hlets (List.mem_append_right _ (List.mem_map_of_mem hf))

theorem Dated.fired_within {n : Nat} (hd : Dated interval g ts now) (hn : g.IsUnderWay n) :
    ∃ t, ts[n]? = some t ∧ now ≤ t + interval.ticks := by
  obtain ⟨f, hf, rfl⟩ := hn
  obtain ⟨t, ht, hdeadline⟩ := hd.fired f hf
  exact ⟨t, ht, hdeadline ▸ hd.due f hf⟩

/-- Short of a firing, the flushes under way were under way before. -/
theorem flush_of_quiet (he : g.Allows done m e) (quiet : g.fires e = false) {f : Flush}
    (hf : f ∈ (g.react e).flushes) :
    ∃ f₀ ∈ g.flushes, f.number = f₀.number ∧ f.deadline = f₀.deadline := by
  have hnext := nextFlush_of_quiet he quiet
  have hc := change_react g e
  generalize g.note? e = x at hc
  cases hc with
  | kept _ flushes | inserted _ _ flushes => exact ⟨f, flushes ▸ hf, rfl, rfl⟩
  | opened _ _ _ _ _ _ next => omega
  | taken f' _ _ _ flushes =>
    rw [flushes] at hf
    obtain ⟨f₀, hf₀, rfl⟩ := List.mem_map.1 hf
    exact ⟨f₀, hf₀, number_take _ _ _, deadline_take _ _ _⟩
  | delivered _ _ _ _ _ flushes | dropped _ _ flushes =>
    rw [flushes] at hf
    exact ⟨f, List.mem_of_mem_filter hf, rfl, rfl⟩

theorem Dated.react (hd : Dated interval g ts m.tick) (he : g.Allows done m e) :
    Dated interval (g.react e) (ts ++ if g.fires e then [m.tick] else []) m.tick := by
  have started := (persists_react g e).started hd.started
  have paced := (interval_react hd.started e).trans hd.paced
  cases hfires : g.fires e with
  | false =>
    rw [if_neg Bool.false_ne_true, List.append_nil]
    refine ⟨started, paced, (nextFlush_of_quiet he hfires).trans hd.count, ?_, ?_⟩
    · intro f hf
      obtain ⟨f₀, hf₀, hnumber, hdeadline⟩ := flush_of_quiet he hfires hf
      rw [hnumber, hdeadline]
      exact hd.fired f₀ hf₀
    · intro f hf
      obtain ⟨f₀, hf₀, -, hdeadline⟩ := flush_of_quiet he hfires hf
      rw [hdeadline]
      exact hd.due f₀ hf₀
  | true =>
    obtain ⟨m', rfl⟩ := eq_fire_of_fires hfires
    obtain ⟨htick, -⟩ : m'.tick = m.tick ∧ m'.wall = m.wall := he
    have heq := (fire_of_fires hfires).2.2
    rw [htick, hd.paced] at heq
    rw [if_pos rfl]
    refine ⟨started, paced, ?_, ?_, ?_⟩
    · rw [Group.react, step, heq, List.length_append, ← hd.count]
      rfl
    · rw [Group.react, step, heq]
      refine List.forall_mem_append.2 ⟨?_, List.forall_mem_singleton.2 ⟨m.tick, ?_, rfl⟩⟩
      · intro f hf
        obtain ⟨t, ht, hdeadline⟩ := hd.fired f hf
        exact ⟨t, by rw [List.getElem?_append_left (List.getElem?_eq_some_iff.1 ht).1, ht],
          hdeadline⟩
      · simp [hd.count]
    · rw [Group.react, step, heq]
      exact List.forall_mem_append.2
        ⟨hd.due, List.forall_mem_singleton.2 (Nat.le_add_right _ _)⟩

theorem Dated.course (hd : Dated interval g ts now) (h : Elapses done last g now c) :
    Dated interval (g.after c) (ts ++ g.firings c) last := by
  induction c generalizing g ts now with
  | nil =>
    rw [firings, ticksWhere, List.append_nil]
    exact hd.pass h
  | cons x c ih =>
    obtain ⟨hpass, he, hrest⟩ := h
    rw [firings_cons, ← List.append_assoc]
    exact ih ((hd.pass hpass).react he) hrest

end Dated

/-! ## Before the start -/

section Start

variable {done : Nat → Option Nat} {g : Group} {m m₀ : Moment} {e : Event} {last now : Nat}
  {early late : Course} {minInterval : Duration}

/-- A group that has set out on no flush, and whose timer has not been started. -/
structure Idle (g : Group) : Prop where
  unstarted : g.timer = .unstarted
  flushes : g.flushes = []
  next : g.nextFlush = 0

theorem Idle.react (hi : Idle g) (still : (g.react e).timer = .unstarted)
    (he : g.Allows done m e) : Idle (g.react e) := by
  refine ⟨still, ?_, ?_⟩
  · rw [List.eq_nil_iff_forall_not_mem]
    intro f hf
    obtain ⟨f₀, hf₀, -⟩ := flush_of_quiet he (fires_of_unstarted hi.unstarted e) hf
    rw [hi.flushes] at hf₀
    cases hf₀
  · rw [nextFlush_of_quiet he (fires_of_unstarted hi.unstarted e), hi.next]

theorem Idle.course (hi : Idle g) (h : Elapses done last g now early)
    (still : (g.after early).timer = .unstarted) :
    Idle (g.after early) ∧ g.firings early = [] := by
  induction early generalizing g now with
  | nil => exact ⟨hi, rfl⟩
  | cons x c ih =>
    obtain ⟨-, he, hrest⟩ := h
    obtain ⟨hc, hquiet⟩ := ih (hi.react (unstarted_of_after (c := c) still) he) hrest still
    refine ⟨hc, ?_⟩
    rw [firings_cons, fires_of_unstarted hi.unstarted, hquiet]
    rfl

/-- The start of the timer, which nothing fires before. -/
theorem Idle.started (hi : Idle g)
    (h : Elapses done last g now (early.started m₀ minInterval ++ late)) :
    g.firings (early.started m₀ minInterval) = [] ∧
      Dated (g.route.options.groupInterval.max minInterval)
        (g.after (early.started m₀ minInterval)) [] m₀.tick := by
  rw [Course.started, List.append_assoc] at h
  obtain ⟨-, ⟨-, unstarted⟩, -⟩ := h.drop
  obtain ⟨hidle, hquiet⟩ := hi.course h.take unstarted
  constructor
  · rw [Course.started, firings_append, hquiet]
    rfl
  · rw [after_started, Group.start, hidle.unstarted]
    refine ⟨?_, ?_, hidle.next, ?_, ?_⟩
    · dsimp only
      split <;> simp
    · rw [interval, route_after]
    · simp [hidle.flushes]
    · simp [hidle.flushes]

theorem Idle.dated (hi : Idle g)
    (h : Elapses done last g now (early.started m₀ minInterval ++ late)) :
    Dated (g.route.options.groupInterval.max minInterval)
      (g.after (early.started m₀ minInterval ++ late))
      (g.firings (early.started m₀ minInterval ++ late)) last := by
  obtain ⟨hquiet, hd⟩ := hi.started h
  have hrest := h.drop
  rw [Course.started, Course.clock_concat, ← Course.started] at hrest
  rw [after_append, firings_append, hquiet]
  exact hd.course hrest

/-- How a group stands at an event of a course, once it is not idle. -/
theorem Idle.dated_at (hi : Idle g)
    (h : Elapses done last g now (early.started m₀ minInterval ++ late)) {b d : Course}
    {x : Moment × Event} (hb : early.started m₀ minInterval ++ late = b ++ x :: d)
    (active : ¬ Idle (g.after b)) :
    Dated (g.route.options.groupInterval.max minInterval) (g.after b) (g.firings b) x.1.tick := by
  have hx := h
  rw [hb] at hx
  obtain ⟨hpass, -⟩ := hx.drop
  have hunstarted : (g.after early).timer = .unstarted := by
    rw [Course.started, List.append_assoc] at h
    exact h.drop.2.1.2
  rw [Course.started, List.append_assoc] at hb
  rcases append_cons_eq hb with ⟨c, rfl, -⟩ | ⟨rfl, -, -⟩ | ⟨b', rfl, -⟩
  · rw [after_append] at hunstarted
    exact absurd (hi.course hx.take (unstarted_of_after hunstarted)).1 active
  · exact absurd (hi.course hx.take hunstarted).1 active
  · have hsplit : early ++ (m₀, .start m₀.tick minInterval) :: b' =
        early.started m₀ minInterval ++ b' := by simp [Course.started]
    rw [hsplit] at hx hpass ⊢
    exact (hi.dated hx.take).pass hpass

theorem Idle.dated_fires (hi : Idle g)
    (h : Elapses done last g now (early.started m₀ minInterval ++ late)) {b d : Course}
    {x : Moment × Event} (hb : early.started m₀ minInterval ++ late = b ++ x :: d)
    (hf : (g.after b).fires x.2 = true) :
    Dated (g.route.options.groupInterval.max minInterval) (g.after b) (g.firings b) x.1.tick := by
  refine hi.dated_at h hb fun hidle => ?_
  rw [fires_of_unstarted hidle.unstarted] at hf
  cases hf

end Start

/-! ## Deliveries that take too long -/

section Late

variable {done : Nat → Option Nat} {g : Group} {m₀ : Moment} {last now n t : Nat}
  {early late : Course} {minInterval : Duration}

/-- What a note of a course is of. -/
theorem exists_of_mem_notes {c : Course} {x : Note} (hx : x ∈ g.notes c) :
    ∃ b y d, c = b ++ y :: d ∧ (g.after b).note? y.2 = some x := by
  induction c generalizing g with
  | nil => cases hx
  | cons y c ih =>
    rw [notes_cons, List.mem_append, Option.mem_toList] at hx
    rcases hx with hx | hx
    · exact ⟨[], y, c, rfl, hx⟩
    · obtain ⟨b, z, d, rfl, hz⟩ := ih hx
      exact ⟨y :: b, z, d, rfl, hz⟩

theorem eq_endFlush_of_delivered {e : Event} (hx : g.note? e = some (.delivered n)) :
    e = .step (.endFlush n true) := by
  rcases e with _ | _ | _ | _ | (_ | _ | _ | ⟨number, _ | _⟩ | _)
  case step.beginFlush =>
    simp only [note?] at hx
    split at hx
    · split at hx <;> cases hx
    · cases hx
  case step.endFlush.true =>
    simp only [note?] at hx
    split at hx
    · split at hx
      · cases hx
      · cases hx
        rfl
    · cases hx
  all_goals cases hx

/-- A delivery that fails changes nothing. -/
theorem holdings_endFlush_false (g : Group) (n : Nat) :
    (g.endFlush n false).holdings = g.holdings := by
  cases change_endFlush g n false with
  | kept holdings | opened _ _ _ _ holdings | dropped _ holdings => exact holdings

theorem underWay_of_isDelivering (h : g.isDelivering n = true) : g.IsUnderWay n := by
  rw [isDelivering, Option.any_eq_true] at h
  obtain ⟨f, hf, -⟩ := h
  exact ⟨f, (flush?_eq_some hf).1, (flush?_eq_some hf).2⟩

/-- A delivery that succeeds has completed within one interval of its firing. -/
theorem Idle.completed (hi : Idle g)
    (h : Elapses done last g now (early.started m₀ minInterval ++ late)) {b d : Course} {m : Moment}
    (hb : early.started m₀ minInterval ++ late = b ++ (m, .step (.endFlush n true)) :: d)
    (ht : (g.firings (early.started m₀ minInterval ++ late))[n]? = some t) :
    ∃ t', done n = some t' ∧
      t' ≤ t + (g.route.options.groupInterval.max minInterval).ticks := by
  have hallows : (g.after b).Allows done m (.step (.endFlush n true)) := by
    rw [hb] at h
    exact h.drop.2.1
  obtain ⟨hdelivering, hdone⟩ := hallows
  have hn := underWay_of_isDelivering hdelivering
  have active : ¬ Idle (g.after b) := by
    intro hidle
    obtain ⟨f, hf, -⟩ := hn
    rw [hidle.flushes] at hf
    cases hf
  have hd := hi.dated_at h hb active
  obtain ⟨t₀, ht₀, hdue⟩ := hd.fired_within hn
  have hsame : t₀ = t := by
    rw [hb, firings_append,
      List.getElem?_append_left (List.getElem?_eq_some_iff.1 ht₀).1, ht₀] at ht
    exact Option.some.inj ht
  rw [Option.any_eq_true] at hdone
  obtain ⟨t', ht', hle⟩ := hdone
  exact ⟨t', ht', hsame ▸ Nat.le_trans (of_decide_eq_true hle) hdue⟩

end Late

/-! ## Flushes that overlap -/

/-- Whether the flush of a number is fired, in a course, because of an insertion that escalates:
nothing fires in between, and no time passes. -/
def Hastened (g : Group) (c : Course) (number : Nat) : Prop :=
  ∃ b m wall a s x d, c = b ++ (m, .insert wall a) :: s ++ x :: d ∧
    (g.after b).urges (g.notes b) (.insert wall a) = true ∧
    (g.after (b ++ [(m, .insert wall a)])).firings s = [] ∧
    (g.after (b ++ (m, .insert wall a) :: s)).fires x.2 = true ∧ x.1.tick = m.tick ∧
    (g.firings (b ++ (m, .insert wall a) :: s)).length = number

section Overlap

variable {done : Nat → Option Nat} {interval : Duration} {g : Group} {h : List Note} {ts : List Nat}
  {m₀ m : Moment} {e : Event} {last now n n' t' : Nat} {early late c d : Course}
  {x : Moment × Event} {minInterval : Duration}

theorem Dated.running (hd : Dated interval g ts now)
    (hl : Ledger g.holdings g.flushes g.nextFlush h) (live : g.isCancelled = false)
    (hf : g.fires e = true) : Running interval g h := by
  obtain ⟨m', rfl⟩ := eq_fire_of_fires hf
  obtain ⟨armed, fits, -⟩ := fire_of_fires hf
  exact ⟨live, hd.paced, hd.paced ▸ fits, armed, hl⟩

theorem admits_of_fires (he : g.Allows done m e) (hf : g.fires e = true) : g.Admits m e := by
  obtain ⟨m', rfl⟩ := eq_fire_of_fires hf
  exact he

/-- When a timer that is not cancelled fires after it has fired. -/
theorem Dated.next_firing (hd : Dated interval g ts m.tick)
    (hl : Ledger g.holdings g.flushes g.nextFlush h) (hf : g.fires e = true)
    (elapses : Elapses done last g now ((m, e) :: (c ++ x :: d)))
    (live : (g.after ((m, e) :: (c ++ [x]))).isCancelled = false)
    (quiet : (g.react e).firings c = []) (hx : (g.after ((m, e) :: c)).fires x.2 = true) :
    x.1.tick = earlier (m.tick + interval.ticks)
      ((g.react e).escalations (h ++ (g.note? e).toList) c).head? := by
  obtain ⟨-, he, hrest⟩ := elapses
  rw [List.append_cons] at hrest
  have hrest := hrest.take
  rw [Course.clock_concat] at hrest
  have prompt := hrest.prompt live
  have hr := hd.running hl (live_of_after live) hf
  have he := admits_of_fires he hf
  obtain ⟨-, hpace⟩ := hr.fire he hf
  have stretch : (g.react e).IsStretch c [x] := by
    refine ⟨quiet, fun y hy => ?_⟩
    cases hy
    exact hx
  exact hpace.keeps (hr.react he) prompt stretch

/-- Where a course comes to its next firing before one interval has passed, an insertion has
escalated. -/
theorem exists_urges_of_earlier {due : Nat} {h : List Note}
    (hx : x.1.tick = earlier due (g.escalations h c).head?) (hlt : x.1.tick < due) :
    ∃ b m wall a s, c = b ++ (m, .insert wall a) :: s ∧
      (g.after b).urges (h ++ g.notes b) (.insert wall a) = true ∧ x.1.tick = m.tick := by
  cases hhead : (g.escalations h c).head? with
  | none =>
    rw [hhead, earlier_none] at hx
    exact absurd hx (Nat.ne_of_lt hlt)
  | some t =>
    rw [hhead, earlier_some] at hx
    rw [List.head?_eq_getElem?] at hhead
    obtain ⟨b, ⟨m, e⟩, s, rfl, hurges, rfl, -⟩ := exists_of_getElem?_ticksWhere hhead
    rcases e with ⟨wall, a⟩ | _ | _ | _ | _
    · refine ⟨b, m, wall, a, s, rfl, hurges, ?_⟩
      dsimp only at hx ⊢
      omega
    all_goals cases hurges

/-- Nothing was delivered before the tick of an insertion that escalates. -/
theorem Elapses.le_delivery {b s : Course} {wall : Instant} {a : Alert}
    (h : Elapses done last g now (b ++ (m, .insert wall a) :: s))
    (hurges : (g.after b).urges (g.notes b) (.insert wall a) = true) {v : Nat}
    (hv : v ∈ g.deliveries (b ++ (m, .insert wall a) :: s)) : m.tick ≤ v := by
  rw [deliveries_append, List.mem_append] at hv
  rcases hv with hv | hv
  · simp [urges, delivered_of_mem_deliveries hv] at hurges
  · obtain ⟨y, hy, rfl⟩ := mem_ticksWhere hv
    obtain ⟨-, -, hrest⟩ := h.drop
    rcases List.mem_cons.1 hy with rfl | hy
    · exact Nat.le_refl _
    · exact (hrest.within hy).1

/-- The firings up to an event are at its tick or before. -/
theorem Elapses.firing_le (h : Elapses done last g now (c ++ x :: d))
    (hn : n < (g.firings (c ++ [x])).length) {t : Nat}
    (ht : (g.firings (c ++ x :: d))[n]? = some t) : t ≤ x.1.tick := by
  rw [List.append_cons] at h ht
  rw [firings_append, List.getElem?_append_left hn] at ht
  obtain ⟨y, hy, rfl⟩ := mem_ticksWhere (List.mem_of_getElem? ht)
  have hle := (h.take.within hy).2
  rwa [Course.clock_concat] at hle

/-- A flush that is under way some time after its firing was not fired at a cancelled group. -/
theorem Elapses.live (h : Elapses done last g now (c ++ x :: d))
    (hx : (g.after c).fires x.2 = true)
    (hn : (g.after (c ++ x :: d)).IsUnderWay (g.after c).nextFlush)
    (later : x.1.tick < last) : (g.after (c ++ [x])).isCancelled = false := by
  rw [← Bool.not_eq_true]
  intro cancelled
  rw [List.append_cons] at h hn
  rw [after_append] at hn
  have hrest := h.drop
  rw [Course.clock_concat] at hrest
  have old := nextFlush_lt_of_fires hx
  rw [← after_concat] at old
  exact absurd (hrest.still cancelled old hn) (Nat.ne_of_gt later)

/-- The firing of a number, but for the first, and the one before it. -/
theorem exists_consecutive {k : Nat} (ht : (g.firings c)[k + 1]? = some t') :
    ∃ b y s x d, c = b ++ y :: s ++ x :: d ∧ (g.after b).fires y.2 = true ∧
      (g.firings (b ++ [y])).length = k + 1 ∧ (g.firings (b ++ y :: s)).length = k + 1 ∧
      (g.after (b ++ y :: s)).fires x.2 = true ∧ x.1.tick = t' := by
  obtain ⟨p, x, d, rfl, hx, hxt, hp⟩ := exists_of_getElem?_ticksWhere ht
  have hk : k < (g.firings p).length := hp ▸ Nat.lt_succ_self k
  obtain ⟨b, y, s, rfl, hy, -, hb⟩ := exists_of_getElem?_ticksWhere (List.getElem?_eq_getElem hk)
  refine ⟨b, y, s, x, d, rfl, hy, ?_, hp, hx, hxt⟩
  rw [firings_append, List.length_append, firings_cons, hy]
  exact congrArg (· + 1) hb

/-- A firing less than an interval after the one before it is due to an escalation. -/
theorem Dated.hastened {b s : Course} {y : Moment × Event}
    (hd : Dated interval (g.after b) ts y.1.tick)
    (hl : Ledger (g.after b).holdings (g.after b).flushes (g.after b).nextFlush (g.notes b))
    (hy : (g.after b).fires y.2 = true) (h : Elapses done last g now (b ++ y :: s ++ x :: d))
    (live : (g.after (b ++ y :: s ++ [x])).isCancelled = false)
    (same : (g.firings (b ++ y :: s)).length = (g.firings (b ++ [y])).length)
    (hx : (g.after (b ++ y :: s)).fires x.2 = true) (soon : x.1.tick < y.1.tick + interval.ticks) :
    g.Hastened (b ++ y :: s ++ x :: d) (g.firings (b ++ y :: s)).length ∧
      ∀ v ∈ g.deliveries (b ++ y :: s ++ x :: d), x.1.tick ≤ v := by
  have quiet : (g.after (b ++ [y])).firings s = [] := by
    rw [List.append_cons, firings_append, List.length_append] at same
    exact List.length_eq_zero_iff.1 (by omega)
  rw [after_concat] at quiet
  have hnext : x.1.tick = earlier (y.1.tick + interval.ticks) (((g.after b).react y.2).escalations
      (g.notes b ++ ((g.after b).note? y.2).toList) s).head? := by
    rw [List.append_assoc] at h live
    rw [after_append] at live hx
    exact hd.next_firing hl hy h.drop live quiet hx
  obtain ⟨b', m, wall, a, s, rfl, hurges, htick⟩ := exists_urges_of_earlier hnext soon
  have hsplit : b ++ y :: (b' ++ (m, .insert wall a) :: s) =
      b ++ y :: b' ++ (m, .insert wall a) :: s := by simp
  have hurges :
      (g.after (b ++ y :: b')).urges (g.notes (b ++ y :: b')) (.insert wall a) = true := by
    rw [after_append, notes_append, notes_cons, ← List.append_assoc]
    exact hurges
  rw [hsplit] at h hx ⊢
  constructor
  · refine ⟨b ++ y :: b', m, wall, a, s, x, d, rfl, hurges, ?_, hx, htick, rfl⟩
    rw [firings_append, firings_cons, List.append_eq_nil_iff, List.append_eq_nil_iff] at quiet
    rw [after_concat, after_append]
    exact quiet.2.2
  · intro v hv
    rw [List.append_assoc] at h hv
    rw [htick]
    exact h.le_delivery hurges hv

/-- **Only an escalation makes flushes overlap**: where two are under way after the tick at which
the later one was fired, an insertion that escalated had it fired. -/
theorem Idle.overlap (hi : Idle g) (hl : Ledger g.holdings g.flushes g.nextFlush [])
    (h : Elapses done last g now (early.started m₀ minInterval ++ late)) (hlt : n < n')
    (hn : (g.after (early.started m₀ minInterval ++ late)).IsUnderWay n)
    (hn' : (g.after (early.started m₀ minInterval ++ late)).IsUnderWay n')
    (ht' : (g.firings (early.started m₀ minInterval ++ late))[n']? = some t') (later : t' < last) :
    g.Hastened (early.started m₀ minInterval ++ late) n' ∧
      ∀ v ∈ g.deliveries (early.started m₀ minInterval ++ late), t' ≤ v := by
  obtain ⟨t, ht, hdue⟩ := (hi.dated h).fired_within hn
  -- the later flush is fired by `x`, and the firing before it is `y`
  obtain ⟨k, rfl⟩ : ∃ k, n' = k + 1 := ⟨n' - 1, by omega⟩
  obtain ⟨b, y, s, x, d, hc, hy, hky, hkx, hx, rfl⟩ := exists_consecutive ht'
  have hcy : early.started m₀ minInterval ++ late = b ++ y :: (s ++ x :: d) := by simp [hc]
  have hdx := hi.dated_fires h hc hx
  have hdy := hi.dated_fires h hcy hy
  have soon : x.1.tick < y.1.tick + (g.route.options.groupInterval.max minInterval).ticks := by
    rw [hcy] at h ht
    have hle := h.firing_le (hky ▸ hlt) ht
    omega
  rw [hc] at h hn' ⊢
  have live : (g.after (b ++ y :: s ++ [x])).isCancelled = false := by
    refine h.live hx ?_ later
    rwa [hdx.count, hkx]
  have hled := ledger_run hl (b.map Prod.snd)
  rw [← hkx]
  exact hdy.hastened hled hy h live (hkx.trans hky.symm) hx soon

end Overlap

/-- **Flushes end within one interval**, whatever their deliveries do. A flush under way was fired
no longer than an interval ago. A delivery that completes later than that, or never, is not noted as
a success and leaves what the group holds as it is. Two flushes are under way at a tick after the
firing of the later one only if an insertion that escalated had it fired, and nothing was delivered
before that insertion, nor at an earlier tick than the firing. -/
theorem flushes_end_within_interval (labels : LabelSet) (route : Route) (serial : Nat)
    (isCancelled : Bool) (minInterval : Duration) (early late : Course) (m₀ : Moment) (last : Nat)
    (done : Nat → Option Nat)
    (elapses : Elapses done last { labels, route, serial, isCancelled } 0
      (early.started m₀ minInterval ++ late)) :
    let g : Group := { labels, route, serial, isCancelled }
    let c := early.started m₀ minInterval ++ late
    let interval := (route.options.groupInterval.max minInterval).ticks
    (∀ n, (g.after c).IsUnderWay n → ∃ t, (g.firings c)[n]? = some t ∧ last ≤ t + interval) ∧
    (∀ n t, (g.firings c)[n]? = some t → (∀ t', done n = some t' → t + interval < t') →
      .delivered n ∉ g.notes c ∧
      ∀ b m delivered d, c = b ++ (m, .step (.endFlush n delivered)) :: d →
        ((g.after b).endFlush n delivered).holdings = (g.after b).holdings) ∧
    (∀ n n' t', n < n' → (g.after c).IsUnderWay n → (g.after c).IsUnderWay n' →
      (g.firings c)[n']? = some t' → t' < last →
        g.Hastened c n' ∧ ∀ v ∈ g.deliveries c, t' ≤ v) := by
  intro g c interval
  have hi : Idle g := ⟨rfl, rfl, rfl⟩
  refine ⟨?_, ?_, ?_⟩
  · intro n hn
    exact (hi.dated elapses).fired_within hn
  · intro n t ht hlate
    have cut : ∀ b m d, c ≠ b ++ (m, .step (.endFlush n true)) :: d := by
      intro b m d hb
      obtain ⟨t', ht', hle⟩ := hi.completed elapses hb ht
      exact absurd hle (Nat.not_le.2 (hlate t' ht'))
    constructor
    · intro hd
      obtain ⟨b, ⟨m, e⟩, d, hb, he⟩ := exists_of_mem_notes hd
      obtain rfl : e = _ := eq_endFlush_of_delivered he
      exact cut b m d hb
    · intro b m delivered d hb
      cases delivered with
      | true => exact absurd hb (cut b m d)
      | false => exact holdings_endFlush_false _ n
  · intro n n' t' hlt hn hn' ht' later
    exact hi.overlap .start elapses hlt hn hn' ht' later

/-- An alert escalates and is flushed, and another one does while the delivery goes on. -/
def overlapping : Course :=
  urged ++ [firedAt 40, (secondsIn 40, .step (.beginFlush 0)),
    (secondsIn 50, .insert ⟨50, 0⟩ (alertFrom "C" (-60))), (secondsIn 50, .step (.wake 50000)),
    firedAt 50, (secondsIn 50, .step (.beginFlush 1))]

/-- Two deliveries that never complete overlap, and the first one is cut off. -/
theorem stuck_deliveries_overlap :
    let g := newAt (timedRoute (.ofSecs 60) (.ofSecs 300))
    let c := startedWithAlert ++ overlapping
    let cut := c ++ [(secondsIn 340, .step (.endFlush 0 false))]
    (∃ t, (g.firings c)[0]? = some t ∧ 340000 ≤ t + 300000) ∧
      (.delivered 0 ∉ g.notes cut ∧
        ((g.after c).endFlush 0 false).holdings = (g.after c).holdings) ∧
      g.Hastened c 1 := by
  intro g c cut
  obtain ⟨hwithin, -, hoverlap⟩ := flushes_end_within_interval .empty
    (timedRoute (.ofSecs 60) (.ofSecs 300)) 0 false .zero
    [(secondsIn 0, .insert ⟨0, 0⟩ (alertFrom "A" 0))] overlapping (secondsIn 0) 340000
    (fun _ => none) (by decide +kernel)
  obtain ⟨-, hcut, -⟩ := flushes_end_within_interval .empty
    (timedRoute (.ofSecs 60) (.ofSecs 300)) 0 false .zero
    [(secondsIn 0, .insert ⟨0, 0⟩ (alertFrom "A" 0))]
    (overlapping ++ [(secondsIn 340, .step (.endFlush 0 false))]) (secondsIn 0) 345000
    (fun _ => none) (by decide +kernel)
  obtain ⟨hfailed, hsame⟩ := hcut 0 40000 (by decide +kernel) (by simp)
  refine ⟨hwithin 0 (by decide +kernel), ⟨hfailed, hsame c _ false [] rfl⟩, ?_⟩
  exact (hoverlap 0 1 50000 (by decide) (by decide +kernel) (by decide +kernel) (by decide +kernel)
    (by decide)).1

end AlertFlow.Group
