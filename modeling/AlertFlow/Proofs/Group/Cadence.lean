import AlertFlow.Proofs.Alert.Wait
import AlertFlow.Proofs.Group.Course

/-!
When the timer of a group fires. It fires once the group wait has passed since its start, and then
once in each interval; an insertion that escalates makes the firing that comes next happen at once,
and nothing else moves a firing. After a delivery has succeeded no insertion escalates, so that from
then on the firings are one interval apart.
-/
namespace AlertFlow.Group

/-! ## Events of a course -/

/-- Whether the timer fires in an event: it sets out on a flush. -/
def fires (g : Group) : Event → Bool
  | .step (.fire m) => (g.fire m).nextFlush != g.nextFlush
  | _ => false

/-- Whether a note is of a delivery that succeeded. -/
def Note.isDelivery : Note → Bool
  | .delivered _ => true
  | _ => false

/-- Whether an event inserts an alert that escalates: none was delivered so far, and the alert has
waited for longer than the group wait. -/
def urges (g : Group) (h : List Note) : Event → Bool
  | .insert now a => !h.any Note.isDelivery && a.hasWaited g.route.options.groupWait now
  | _ => false

/-- Whether a delivery succeeds in an event. -/
def delivers (g : Group) (e : Event) : Bool := (g.note? e).any Note.isDelivery

theorem any_isDelivery_note? (g : Group) (e : Event) :
    (g.note? e).toList.any Note.isDelivery = g.delivers e := by
  rw [delivers]
  cases g.note? e with
  | none => rfl
  | some x => simp

/-- The ticks of the events of a course that have a property, given what was noted before. -/
def ticksWhere (p : Group → List Note → Event → Bool) :
    Group → List Note → Course → List Nat
  | _, _, [] => []
  | g, h, (m, e) :: c =>
    (if p g h e then [m.tick] else []) ++ ticksWhere p (g.react e) (h ++ (g.note? e).toList) c

/-- The ticks at which the timer fires. -/
def firings (g : Group) (c : Course) : List Nat := ticksWhere (fun g _ => g.fires) g [] c

/-- The ticks at which an insertion escalates, given what was noted before. -/
def escalations (g : Group) (h : List Note) (c : Course) : List Nat := ticksWhere urges g h c

/-- The ticks at which a delivery succeeds. -/
def deliveries (g : Group) (c : Course) : List Nat := ticksWhere (fun g _ => g.delivers) g [] c

section TicksWhere

variable {p : Group → List Note → Event → Bool} {g : Group} {h : List Note}

theorem ticksWhere_append (c d : Course) :
    ticksWhere p g h (c ++ d) =
      ticksWhere p g h c ++ ticksWhere p (g.after c) (h ++ g.notes c) d := by
  induction c generalizing g h with
  | nil => simp [ticksWhere, notes, history, after, run]
  | cons x c ih =>
    rw [List.cons_append, ticksWhere, ih, ticksWhere, notes_cons, ← List.append_assoc,
      ← List.append_assoc]
    rfl

/-- What was noted before does not matter to a property that does not look at it. -/
theorem ticksWhere_eq_of_state (p : Group → Event → Bool) (g : Group) (h h' : List Note)
    (c : Course) : ticksWhere (fun g _ => p g) g h c = ticksWhere (fun g _ => p g) g h' c := by
  induction c generalizing g h h' with
  | nil => rfl
  | cons x c ih => rw [ticksWhere, ticksWhere, ih _ _ (h' ++ (g.note? x.2).toList)]

theorem firings_cons (g : Group) (x : Moment × Event) (c : Course) :
    g.firings (x :: c) = (if g.fires x.2 then [x.1.tick] else []) ++ (g.react x.2).firings c :=
  congrArg _ (ticksWhere_eq_of_state fires (g.react x.2) _ [] c)

theorem deliveries_cons (g : Group) (x : Moment × Event) (c : Course) :
    g.deliveries (x :: c) =
      (if g.delivers x.2 then [x.1.tick] else []) ++ (g.react x.2).deliveries c :=
  congrArg _ (ticksWhere_eq_of_state delivers (g.react x.2) _ [] c)

theorem escalations_cons (g : Group) (h : List Note) (x : Moment × Event) (c : Course) :
    g.escalations h (x :: c) = (if g.urges h x.2 then [x.1.tick] else []) ++
      (g.react x.2).escalations (h ++ (g.note? x.2).toList) c := rfl

theorem mem_ticksWhere {c : Course} {t : Nat} (ht : t ∈ ticksWhere p g h c) :
    ∃ x ∈ c, x.1.tick = t := by
  induction c generalizing g h with
  | nil => cases ht
  | cons x c ih =>
    rcases List.mem_append.1 ht with ht | ht
    · split at ht
      · exact ⟨x, List.mem_cons_self, (List.mem_singleton.1 ht).symm⟩
      · cases ht
    · obtain ⟨y, hy, hyt⟩ := ih ht
      exact ⟨y, List.mem_cons_of_mem _ hy, hyt⟩

/-- The event that a tick stands for, and how many came before it. -/
theorem exists_of_getElem?_ticksWhere {c : Course} {n t : Nat}
    (ht : (ticksWhere p g h c)[n]? = some t) :
    ∃ b x d, c = b ++ x :: d ∧ p (g.after b) (h ++ g.notes b) x.2 = true ∧ x.1.tick = t ∧
      (ticksWhere p g h b).length = n := by
  induction c generalizing g h n with
  | nil => cases ht
  | cons x c ih =>
    cases hx : p g h x.2 with
    | true =>
      rw [ticksWhere, hx] at ht
      cases n with
      | zero => exact ⟨[], x, c, rfl, by simpa [after, run, notes, history] using hx,
          Option.some.inj ht, rfl⟩
      | succ n =>
        obtain ⟨b, y, d, rfl, hy, hyt, hn⟩ := ih ht
        refine ⟨x :: b, y, d, rfl, ?_, hyt, ?_⟩
        · rwa [notes_cons, ← List.append_assoc]
        · rw [ticksWhere, hx, if_pos rfl, List.length_append, hn, List.length_singleton,
            Nat.add_comm]
    | false =>
      rw [ticksWhere, hx] at ht
      obtain ⟨b, y, d, rfl, hy, hyt, hn⟩ := ih ht
      refine ⟨x :: b, y, d, rfl, ?_, hyt, ?_⟩
      · rwa [notes_cons, ← List.append_assoc]
      · rw [ticksWhere, hx]
        exact hn

end TicksWhere

/-! ## From one firing to the next -/

/-- The earlier of a tick and another one, if there is one. -/
def earlier (due : Nat) (urged : Option Nat) : Nat := urged.elim due (min due)

@[simp] theorem earlier_none (due : Nat) : earlier due none = due := rfl

@[simp] theorem earlier_some (due tick : Nat) : earlier due (some tick) = min due tick := rfl

/-- How a running timer stands at a tick after it was set: it stays as it was set up to the first
escalation, and then fires before time goes on. -/
inductive Pace (g : Group) (now set : Nat) : Option Nat → Prop where
  | calm (le : now ≤ set) (armed : g.timer = .armed set) (asleep : g.isWoken = false) :
      Pace g now set none
  | urged (due : Nat) (le : now ≤ set) (armed : g.timer = .armed due)
      (soon : g.isWoken = true ∨ due = now) : Pace g now set (some now)

section Pace

variable {interval : Duration} {g : Group} {h : List Note} {m : Moment} {e : Event}
  {last now set tick : Nat} {u : Option Nat}

theorem Pace.le_earlier (hp : Pace g now set u) : now ≤ earlier set u := by
  cases hp with
  | calm le => exact le
  | urged _ le => exact Nat.le_min.2 ⟨le, Nat.le_refl _⟩

/-- Time passes up to the next firing only. -/
theorem Pace.pass (hp : Pace g now set u) (hpass : g.Passes timerLets now tick) :
    Pace g tick set u := by
  obtain ⟨hle, hlets⟩ := hpass
  rcases Nat.eq_or_lt_of_le hle with rfl | hlt
  · exact hp
  have hlets := hlets hlt
  cases hp with
  | calm le armed asleep =>
    refine .calm ?_ armed asleep
    simpa [timerLets, armed, asleep] using hlets
  | urged due le armed soon =>
    simp only [timerLets, armed, Bool.and_eq_true, decide_eq_true_eq, Bool.not_eq_true'] at hlets
    obtain ⟨hdue, hasleep⟩ := hlets
    rcases soon with hwoken | rfl
    · rw [hasleep] at hwoken
      cases hwoken
    · omega

/-- A group escalates where nothing was delivered so far. -/
theorem escalates_eq (hl : Ledger g.holdings g.flushes g.nextFlush h) (now : Instant) (a : Alert) :
    g.escalates now a = g.urges h (.insert now a) := by
  have : g.holdings.hasSent = h.any Note.isDelivery := by
    rw [Bool.eq_iff_iff, hl.sent, List.any_eq_true]
    constructor
    · intro hsent
      obtain ⟨n, hn⟩ := hsent
      exact ⟨_, hn, rfl⟩
    · intro hany
      obtain ⟨_ | _ | n, hx, hd⟩ := hany
      · cases hd
      · cases hd
      · exact ⟨n, hx⟩
  rw [escalates, urges, this]

theorem Pace.same {g' : Group} (hp : Pace g now set u) (timer : g'.timer = g.timer)
    (isWoken : g'.isWoken = g.isWoken) : Pace g' now set (u.or none) := by
  cases hp with
  | calm le armed asleep => exact .calm le (timer ▸ armed) (isWoken ▸ asleep)
  | urged due le armed soon => exact .urged due le (timer ▸ armed) (isWoken ▸ soon)

/-- Short of a firing, an event moves the next one only if it escalates. -/
theorem Pace.react (hp : Pace g m.tick set u) (hr : Running interval g h) (he : g.Admits m e)
    (quiet : g.fires e = false) :
    Pace (g.react e) m.tick set (u.or (if g.urges h e then [m.tick] else []).head?) := by
  obtain ⟨due, armed, ht⟩ := hr.turn he
  generalize hg : g.react e = g' at ht
  cases ht with
  | inserted now a =>
    rw [← escalates_eq hr.ledger]
    cases hp with
    | calm le armed asleep =>
      cases hesc : g.escalates now a with
      | false => exact .calm le armed (by simp [insert, asleep, hesc])
      | true => exact .urged set le armed (.inl (by simp [insert, hesc]))
    | urged due le armed soon =>
      refine .urged due le armed (soon.imp_left fun hw => ?_)
      simp [insert, hw]
  | noticed tick woken =>
    cases hp with
    | calm _ _ asleep =>
      rw [asleep] at woken
      cases woken
    | urged due le => exact .urged m.tick le rfl (.inr rfl)
  | fired =>
    rw [react, step] at hg
    simp [fires, hg, openFlush] at quiet
  | begun number =>
    obtain ⟨fs, heq⟩ := beginFlush_eq g number
    rw [heq]
    exact hp.same rfl rfl
  | ended number delivered =>
    obtain ⟨fs, b, heq⟩ := endFlush_eq g number delivered
    rw [heq]
    exact hp.same rfl rfl
  | idle => exact hp.same rfl rfl

/-- A timer fires only when it is due, and is set one interval on. -/
theorem Running.fire (hr : Running interval g h) (he : g.Admits m e) (hf : g.fires e = true) :
    (∃ due, g.timer = .armed due ∧ due ≤ m.tick) ∧
      Pace (g.react e) m.tick (m.tick + interval.ticks) none := by
  obtain ⟨due, armed, ht⟩ := hr.turn he
  generalize hg : g.react e = g' at ht
  cases ht with
  | fired m' le =>
    refine ⟨⟨due, armed, le⟩, .calm (Nat.le_add_right _ _) ?_ rfl⟩
    rw [hr.paced]
  | idle s =>
    rcases s with _ | m' | _ | _ | _
    · cases hf
    · rw [Group.react, step] at hg
      simp [fires, hg] at hf
    · cases hf
    · cases hf
    · cases hf
  | inserted | noticed | begun | ended => cases hf

theorem Pace.eq_earlier (hp : Pace g now set u) {due : Nat} (armed : g.timer = .armed due)
    (le : due ≤ now) : now = earlier set u := by
  cases hp with
  | calm hle harmed =>
    rw [armed] at harmed
    cases harmed
    exact Nat.le_antisymm hle le
  | urged _ hle => exact (Nat.min_eq_right hle).symm

/-- How the timer stands after a stretch without firings. -/
theorem Pace.stretch {c d : Course} (hp : Pace g now set u) (hr : Running interval g h)
    (prompt : Prompt timerLets last g now (c ++ d)) (quiet : g.firings c = []) :
    Pace (g.after c) (c.clock now) set (u.or (g.escalations h c).head?) := by
  induction c generalizing g h now u with
  | nil => simpa [escalations, ticksWhere, after, run, Course.clock] using hp
  | cons x c ih =>
    obtain ⟨m, e⟩ := x
    obtain ⟨hpass, he, hrest⟩ := prompt
    rw [firings_cons, List.append_eq_nil_iff] at quiet
    obtain ⟨hhead, htail⟩ := quiet
    have hquiet : g.fires e = false := by simpa using hhead
    have hp := (hp.pass hpass).react hr he hquiet
    rw [escalations_cons, List.head?_append, ← Option.or_assoc]
    exact ih hp (hr.react he) hrest htail

end Pace

/-! ## The firings of a course -/

/-- Whether a stretch of a course has no firings and is followed by one, or by the end. -/
def IsStretch (g : Group) (c d : Course) : Prop :=
  g.firings c = [] ∧ ∀ x ∈ d.head?, (g.after c).fires x.2 = true

instance (g : Group) (c d : Course) : Decidable (g.IsStretch c d) :=
  inferInstanceAs (Decidable (_ ∧ _))

/-- Whether what is left of a course after a stretch is up to a tick: it begins at that tick, or
there is nothing and the course has not gone beyond. -/
def Keeps (last due : Nat) (d : Course) : Prop :=
  match d with
  | [] => last ≤ due
  | (m, _) :: _ => m.tick = due

instance (last due : Nat) : (d : Course) → Decidable (Keeps last due d)
  | [] => inferInstanceAs (Decidable (_ ≤ _))
  | _ :: _ => inferInstanceAs (Decidable (_ = _))

theorem keeps_cons {last due : Nat} {x : Moment × Event} {d : Course} :
    Keeps last due (x :: d) ↔ x.1.tick = due := Iff.rfl

section Stretch

variable {interval : Duration} {g : Group} {h : List Note} {last now set : Nat} {u : Option Nat}
  {c d : Course}

/-- **One firing after another**: what follows a stretch is a firing, when it is due. -/
theorem Pace.keeps (hp : Pace g now set u) (hr : Running interval g h)
    (prompt : Prompt timerLets last g now (c ++ d)) (stretch : g.IsStretch c d) :
    Keeps last (earlier set (u.or (g.escalations h c).head?)) d := by
  obtain ⟨quiet, hd⟩ := stretch
  have hp := hp.stretch hr prompt quiet
  have hr := hr.course prompt
  have prompt := prompt.drop
  rcases d with _ | ⟨⟨m, e⟩, d⟩
  · exact (hp.pass prompt).le_earlier
  · obtain ⟨hpass, he, -⟩ := prompt
    obtain ⟨⟨due, armed, le⟩, -⟩ := hr.fire he (hd _ rfl)
    exact (hp.pass hpass).eq_earlier armed le

/-- After a delivery has succeeded no insertion escalates. -/
theorem escalations_of_delivered (hd : h.any Note.isDelivery = true) (c : Course) :
    g.escalations h c = [] := by
  induction c generalizing g h with
  | nil => rfl
  | cons x c ih =>
    have hquiet : g.urges h x.2 = false := by
      rcases x.2 with _ | _ | _ | _ | _
      · simp [urges, hd]
      all_goals rfl
    rw [escalations_cons, hquiet]
    exact ih (by simp [hd])

theorem any_append_delivers {e : Event} (h : List Note) (hd : g.delivers e = true) :
    (h ++ (g.note? e).toList).any Note.isDelivery = true := by
  rw [List.any_append, any_isDelivery_note?, Bool.or_eq_true]
  exact .inr hd

/-- Nothing escalates after the tick of a delivery. -/
theorem le_delivery {lets : Group → Nat → Bool} (prompt : Prompt lets last g now c) {t v : Nat}
    (ht : t ∈ g.escalations h c) (hv : v ∈ g.deliveries c) : t ≤ v := by
  induction c generalizing g h now with
  | nil => cases ht
  | cons x c ih =>
    obtain ⟨m, e⟩ := x
    obtain ⟨-, -, hrest⟩ := prompt
    rw [escalations_cons, List.mem_append] at ht
    rw [deliveries_cons, List.mem_append] at hv
    cases hd : g.delivers e with
    | true =>
      -- a delivery is no insertion, and nothing escalates after it
      have hquiet : g.urges h e = false := by
        rcases e with _ | _ | _ | _ | _
        · cases hd
        all_goals rfl
      have hnone := escalations_of_delivered (g := g.react e) (h := h ++ (g.note? e).toList)
        (any_append_delivers h hd) c
      simp [hnone, hquiet] at ht
    | false =>
      have hv : v ∈ (g.react e).deliveries c := by simpa [hd] using hv
      rcases ht with ht | ht
      · obtain rfl : t = m.tick := by
          split at ht
          · exact List.mem_singleton.1 ht
          · cases ht
        obtain ⟨y, hy, rfl⟩ := mem_ticksWhere hv
        exact hrest.le_tick hy
      · exact ih hrest ht hv

theorem delivered_of_mem_deliveries {v : Nat} (hv : v ∈ g.deliveries c) :
    (g.notes c).any Note.isDelivery = true := by
  induction c generalizing g with
  | nil => cases hv
  | cons x c ih =>
    rw [deliveries_cons, List.mem_append] at hv
    rw [notes_cons, List.any_append, Bool.or_eq_true]
    rcases hv with hv | hv
    · split at hv
      · next hd => exact .inl (by rwa [any_isDelivery_note?])
      · cases hv
    · exact .inr (ih hv)

end Stretch

section Start

variable {g : Group} {h : List Note} {m : Moment} {e : Event} {last now : Nat} {early : Course}

/-- Before its start a timer only takes note of escalations. -/
theorem Waiting.isWoken_react (hw : Waiting g h) (still : (g.react e).timer = .unstarted)
    (he : g.Admits m e) : (g.react e).isWoken = (g.isWoken || g.urges h e) := by
  rcases hw.react_eq still he with ⟨now, a, rfl⟩ | ⟨⟨s, rfl⟩, heq⟩
  · rw [← escalates_eq hw.ledger]
    rfl
  · rw [heq]
    exact (Bool.or_false _).symm

theorem Waiting.isWoken_course (hw : Waiting g h) (prompt : Prompt timerLets last g now early)
    (still : (g.after early).timer = .unstarted) :
    (g.after early).isWoken = (g.isWoken || !(g.escalations h early).isEmpty) := by
  induction early generalizing g h now with
  | nil => simp [after, run, escalations, ticksWhere]
  | cons x c ih =>
    obtain ⟨-, he, hrest⟩ := prompt
    have hx := unstarted_of_after (c := c) still
    have hc := ih (hw.react hx he) hrest still
    rw [hw.isWoken_react hx he] at hc
    rw [escalations_cons]
    show ((g.react x.2).after c).isWoken = _
    rw [hc]
    cases g.urges h x.2 with
    | false => simp
    | true => simp

theorem deliveries_append (g : Group) (c d : Course) :
    g.deliveries (c ++ d) = g.deliveries c ++ (g.after c).deliveries d :=
  (ticksWhere_append c d).trans (congrArg _ (ticksWhere_eq_of_state delivers _ _ [] d))

theorem escalations_append (g : Group) (h : List Note) (c d : Course) :
    g.escalations h (c ++ d) =
      g.escalations h c ++ (g.after c).escalations (h ++ g.notes c) d :=
  ticksWhere_append c d

/-- The first of two lists of ticks, the one up to a tick and the other from it on. -/
theorem head?_append_max {ts us : List Nat} {t₀ : Nat} (hts : ∀ t ∈ ts, t ≤ t₀)
    (hus : ∀ t ∈ us, t₀ ≤ t) :
    (ts ++ us).head?.map (max t₀) = (if ts.isEmpty then none else some t₀).or us.head? := by
  cases ts with
  | nil =>
    cases us with
    | nil => rfl
    | cons t us => simp [Nat.max_eq_right (hus t List.mem_cons_self)]
  | cons t ts => simp [Nat.max_eq_left (hts t List.mem_cons_self)]

theorem fires_of_unstarted (h : g.timer = .unstarted) (e : Event) : g.fires e = false := by
  rcases e with _ | _ | _ | _ | (_ | m | _ | _ | _)
  case step.fire => simp [fires, fire, h]
  all_goals rfl

/-- How the timer stands at its start. -/
theorem Waiting.pace (hw : Waiting g h) (tick : Nat) (minInterval : Duration)
    (wait : g.route.options.groupWait.exceedsClock = false) :
    Pace (g.start tick minInterval) tick (tick + g.route.options.groupWait.ticks)
      (if g.isWoken then some tick else none) := by
  rw [start_of_unstarted hw.unstarted wait]
  split
  · next hwoken => exact .urged _ (Nat.le_add_right _ _) rfl (.inl hwoken)
  · next hasleep => exact .calm (Nat.le_add_right _ _) rfl (Bool.not_eq_true _ ▸ hasleep)

end Start

section Cadence

variable {g : Group} {last now : Nat} {early late : Course} {m₀ : Moment} {minInterval : Duration}
  (hw : Waiting g []) (wait : g.route.options.groupWait.exceedsClock = false)
  (fits : (g.route.options.groupInterval.max minInterval).exceedsClock = false)
  (prompt : Prompt timerLets last g now (early.started m₀ minInterval ++ late))
include hw wait fits prompt

theorem first_firing (asleep : g.isWoken = false) {c d : Course} (hcd : late = c ++ d)
    (stretch : (g.after (early.started m₀ minInterval)).IsStretch c d) :
    Keeps last (earlier (m₀.tick + g.route.options.groupWait.ticks)
      ((g.escalations [] (early.started m₀ minInterval ++ c)).head?.map (max m₀.tick))) d := by
  subst hcd
  have hwe := hw.before_start prompt
  have hlate := prompt.after_start
  have hearly : Prompt timerLets m₀.tick g now early := by
    rw [Course.started, List.append_assoc] at prompt
    exact prompt.take
  have hpace := hwe.pace m₀.tick minInterval (by rwa [route_after])
  rw [route_after, hw.isWoken_course hearly hwe.unstarted, asleep, ← after_started] at hpace
  have hkeeps := hpace.keeps (hw.running prompt wait fits) hlate stretch
  have hstarted : g.escalations [] (early.started m₀ minInterval) = g.escalations [] early := by
    rw [Course.started, escalations_append]
    simp [escalations, ticksWhere, urges]
  rw [escalations_append, hstarted, head?_append_max]
  · simpa using hkeeps
  · intro t ht
    obtain ⟨x, hx, rfl⟩ := mem_ticksWhere ht
    exact hearly.tick_le_last hx
  · intro t ht
    obtain ⟨x, hx, rfl⟩ := mem_ticksWhere ht
    exact hlate.le_tick (List.mem_append_left _ hx)

omit wait fits in
/-- Nothing fires before the start. -/
theorem exists_of_fires {b d : Course} {x : Moment × Event}
    (hb : early.started m₀ minInterval ++ late = b ++ x :: d)
    (hf : (g.after b).fires x.2 = true) : ∃ b', b = early.started m₀ minInterval ++ b' := by
  have hun := (hw.before_start prompt).unstarted
  rw [Course.started, List.append_assoc] at hb
  rcases append_cons_eq hb with ⟨c, rfl, -⟩ | ⟨rfl, rfl, -⟩ | ⟨b', rfl, -⟩
  · rw [after_append] at hun
    rw [fires_of_unstarted (unstarted_of_after hun)] at hf
    cases hf
  · cases hf
  · exact ⟨b', by simp [Course.started]⟩

theorem next_firing {b c d : Course} {x : Moment × Event}
    (hb : early.started m₀ minInterval ++ late = b ++ x :: c ++ d)
    (hf : (g.after b).fires x.2 = true) (stretch : (g.after (b ++ [x])).IsStretch c d) :
    Keeps last (earlier (x.1.tick + (g.route.options.groupInterval.max minInterval).ticks)
      ((g.after (b ++ [x])).escalations (g.notes (b ++ [x])) c).head?) d := by
  rw [List.append_assoc] at hb
  obtain ⟨b', rfl⟩ := exists_of_fires hw prompt hb hf
  rw [List.append_assoc] at hb
  obtain rfl := List.append_cancel_left hb
  have hlate := prompt.after_start
  have hr := (hw.running prompt wait fits).course hlate
  obtain ⟨-, he, hrest⟩ := hlate.drop
  rw [after_append] at hf
  obtain ⟨-, hpace⟩ := hr.fire he hf
  rw [after_concat, after_append] at stretch
  have hkeeps := hpace.keeps (hr.react he) hrest stretch
  rw [after_concat, notes_concat, after_append, notes_append]
  exact hkeeps

theorem next_firing_of_delivered {b c d : Course} {x y : Moment × Event}
    (hb : early.started m₀ minInterval ++ late = b ++ x :: c ++ y :: d)
    (hf : (g.after b).fires x.2 = true) (stretch : (g.after (b ++ [x])).IsStretch c (y :: d))
    (sent : ∃ t ∈ g.deliveries (b ++ x :: c), t < y.1.tick) :
    y.1.tick = x.1.tick + (g.route.options.groupInterval.max minInterval).ticks := by
  have hkeeps := next_firing hw wait fits prompt hb hf stretch
  obtain ⟨v, hv, hlt⟩ := sent
  have hsplit : b ++ x :: c ++ y :: d = b ++ [x] ++ (c ++ y :: d) := by simp
  rw [hb, hsplit] at prompt
  have hc := prompt.drop.take
  rw [List.append_cons, deliveries_append, List.mem_append] at hv
  generalize hesc : ((g.after (b ++ [x])).escalations (g.notes (b ++ [x])) c).head? = u at hkeeps
  rw [keeps_cons] at hkeeps
  cases u with
  | none => rwa [earlier_none] at hkeeps
  | some t =>
    -- had something escalated, it would have done so before anything was delivered
    have ht := List.mem_of_head? hesc
    rw [earlier_some] at hkeeps
    rcases hv with hv | hv
    · rw [escalations_of_delivered (delivered_of_mem_deliveries hv)] at ht
      cases ht
    · have hle : t ≤ v := le_delivery hc ht hv
      have hmin : y.1.tick ≤ t := hkeeps ▸ Nat.min_le_right _ t
      exact absurd (Nat.le_trans hmin hle) (Nat.not_le.2 hlt)

end Cadence

/-- **The cadence of a group.** Its timer first fires once the group wait has passed since its
start, or at the first escalation if that is earlier, though not before the start; and after each
firing it next fires one interval later, or at the first escalation since if that is earlier. So the
firings after the tick of a successful delivery are one interval apart. -/
theorem fires_in_cadence (labels : LabelSet) (route : Route) (serial : Nat)
    (minInterval : Duration) (early late : Course) (m₀ : Moment) (last : Nat)
    (wait : route.options.groupWait.exceedsClock = false)
    (period : (route.options.groupInterval.max minInterval).exceedsClock = false)
    (prompt : Prompt timerLets last { labels, route, serial } 0
      (early.started m₀ minInterval ++ late)) :
    let g : Group := { labels, route, serial }
    let begun := early.started m₀ minInterval
    let interval := (route.options.groupInterval.max minInterval).ticks
    (∀ c d, late = c ++ d → (g.after begun).IsStretch c d →
      Keeps last (earlier (m₀.tick + route.options.groupWait.ticks)
        ((g.escalations [] (begun ++ c)).head?.map (max m₀.tick))) d) ∧
    (∀ b x c d, begun ++ late = b ++ x :: c ++ d → (g.after b).fires x.2 = true →
      (g.after (b ++ [x])).IsStretch c d →
      Keeps last (earlier (x.1.tick + interval)
        ((g.after (b ++ [x])).escalations (g.notes (b ++ [x])) c).head?) d) ∧
    (∀ b x c y d, begun ++ late = b ++ x :: c ++ y :: d → (g.after b).fires x.2 = true →
      (g.after (b ++ [x])).IsStretch c (y :: d) →
      (∃ t ∈ g.deliveries (b ++ x :: c), t < y.1.tick) → y.1.tick = x.1.tick + interval) := by
  intro g begun interval
  have hw : Waiting g [] := .new labels route serial
  refine ⟨?_, ?_, ?_⟩
  · intro c d hcd
    exact first_firing hw wait period prompt rfl hcd
  · intro b x c d hb
    exact next_firing hw wait period prompt hb
  · intro b x c y d hb
    exact next_firing_of_delivered hw wait period prompt hb

/-- The firing of a timer some seconds after the epoch. -/
def firedAt (secs : Nat) : Moment × Event := (secondsIn secs, .step (.fire (secondsIn secs)))

/-- The timer is started, with an alert in the group that has not waited for long. -/
def startedWithAlert : Course :=
  Course.started [(secondsIn 0, .insert ⟨0, 0⟩ (alertFrom "A" 0))] (secondsIn 0) .zero

/-- A second alert escalates and wakes the timer. -/
def urged : Course :=
  [(secondsIn 40, .insert ⟨40, 0⟩ (alertFrom "B" (-60))), (secondsIn 40, .step (.wake 40000))]

/-- The first flush is delivered within two seconds, and a third alert comes in. -/
def delivered : Course :=
  [(secondsIn 40, .step (.beginFlush 0)), (secondsIn 42, .step (.endFlush 0 true)),
    (secondsIn 43, .insert ⟨43, 0⟩ (alertFrom "C" (-60)))]

/-- A group fires early for an alert that escalates, and then an interval later. -/
theorem fires_early_then_regularly :
    let g := newAt (timedRoute (.ofSecs 60) (.ofSecs 300))
    let first := startedWithAlert ++ urged ++ [firedAt 40]
    Keeps 400000 (earlier 60000 ((g.escalations [] (startedWithAlert ++ urged)).head?.map (max 0)))
      (firedAt 40 :: delivered ++ [firedAt 340]) ∧
    Keeps 400000 (earlier 340000 ((g.after first).escalations (g.notes first) delivered).head?)
      [firedAt 340] ∧
    (firedAt 340).1.tick = (firedAt 40).1.tick + 300000 := by
  intro g first
  obtain ⟨hfirst, hnext, hregular⟩ := fires_in_cadence .empty
    (timedRoute (.ofSecs 60) (.ofSecs 300)) 0 .zero
    [(secondsIn 0, .insert ⟨0, 0⟩ (alertFrom "A" 0))]
    (urged ++ firedAt 40 :: delivered ++ [firedAt 340]) (secondsIn 0) 400000
    (by decide +kernel) (by decide +kernel) (by decide +kernel)
  refine ⟨?_, ?_, ?_⟩
  · exact hfirst urged _ rfl (by decide +kernel)
  · exact hnext (startedWithAlert ++ urged) (firedAt 40) delivered [firedAt 340] rfl
      (by decide +kernel) (by decide +kernel)
  · exact hregular (startedWithAlert ++ urged) (firedAt 40) delivered (firedAt 340) [] rfl
      (by decide +kernel) (by decide +kernel) (by decide +kernel)

/-- An interval beyond the range of the clock: 500 000 000 000 years. -/
def endlessInterval : Duration := .ofSecs (500000000000 * 31557600)

/-- With an interval beyond the range of the clock a timer ends where it should first fire. -/
theorem endless_interval_never_fires :
    let g := newAt (timedRoute (.ofSecs 1) endlessInterval)
    Prompt timerLets 2000 g 0 (startedWithAlert ++ [firedAt 1]) ∧
      (g.after startedWithAlert).IsStretch [firedAt 1] [] ∧
      ¬ Keeps 2000
        (earlier 1000 ((g.escalations [] (startedWithAlert ++ [firedAt 1])).head?.map (max 0)))
        [] := by
  decide +kernel

end AlertFlow.Group
