import AlertFlow.Proofs.Group.Cadence

/-!
Escalations are not lost. An insertion that escalates is stored before the timer is woken, and the
timer takes notice of a wake-up only to become due or in setting out on a flush that has yet to take
its snapshot. So, whichever of the events that are possible at the tick of the insertion comes
first, a flush takes a snapshot that shows it before time goes on.
-/
namespace AlertFlow.Group

/-- Whether the timer and the flushes let time pass up to a tick: no flush is still to begin. -/
def flushesLet (g : Group) (tick : Nat) : Bool :=
  g.timerLets tick && g.flushes.all (·.snapshot.isSome)

/-- Whether a flush takes a snapshot in an event: it had none, and has this one afterwards. -/
def Takes (g : Group) (e : Event) (s : Snapshot) : Prop :=
  ∃ number, e = .step (.beginFlush number) ∧ (g.flush? number).any (·.snapshot.isNone) = true ∧
    ((g.react e).flush? number).bind (·.snapshot) = some s

/-- Whether a held alert is the insertion of this revision, or a later version. -/
def Shows (rev : Nat) (a : Alert) (e : HeldAlert) : Prop := e = ⟨rev, a⟩ ∨ rev < e.revision

/-- Whether in an event a flush takes a snapshot that shows the insertion or a later version. -/
def Covers (g : Group) (e : Event) (rev : Nat) (a : Alert) : Prop :=
  ∃ s x, g.Takes e s ∧ (a.fingerprint, x) ∈ s ∧ Shows rev a x

/-- A group that has an insertion still to be shown by a flush. It holds the insertion, in no
snapshot that was taken before, and the timer or a flush has to act on it by a tick. -/
structure Owed (g : Group) (now rev : Nat) (a : Alert) : Prop where
  fresh : rev < g.holdings.nextRevision
  held : ∃ e, g.holdings.held.get? a.fingerprint = some e ∧ Shows rev a e
  older : ∀ f ∈ g.flushes, ∀ s, f.snapshot = some s → ∀ p ∈ s, p.2.revision < rev
  pending : g.isWoken = true ∨ (∃ due, g.timer = .armed due ∧ due ≤ now) ∨
    ∃ f ∈ g.flushes, f.snapshot = none

section Owed

variable {interval : Duration} {g : Group} {h : List Note} {m : Moment} {e : Event} {a : Alert}
  {last now rev tick : Nat} {c d : Course}

theorem Shows.le {x : HeldAlert} (hs : Shows rev a x) : rev ≤ x.revision := by
  rcases hs with rfl | hlt
  · exact Nat.le_refl _
  · exact Nat.le_of_lt hlt

/-- An insertion that escalates is owed. -/
theorem Owed.insert (hl : Ledger g.holdings g.flushes g.nextFlush h) {wall : Instant}
    (hesc : g.escalates wall a = true) (tick : Nat) :
    Owed (g.insert wall a) tick g.holdings.nextRevision a where
  fresh := Nat.lt_succ_self _
  held := ⟨_, (Holdings.get?_insert _ a _).trans (if_pos rfl), .inl rfl⟩
  older := hl.snapshots
  pending := .inl (by simp [Group.insert, hesc])

/-- What is owed holds time up. -/
theorem Owed.not_lets (ho : Owed g now rev a) (hr : Running interval g h) (hlt : now < tick) :
    g.flushesLet tick = false := by
  obtain ⟨due, armed⟩ := hr.armed
  rw [Bool.eq_false_iff]
  intro hlets
  simp only [flushesLet, timerLets, armed, Bool.and_eq_true, decide_eq_true_eq,
    Bool.not_eq_true', List.all_eq_true] at hlets
  obtain ⟨⟨hdue, hasleep⟩, hbegun⟩ := hlets
  rcases ho.pending with hwoken | ⟨due', armed', hle⟩ | ⟨f, hf, hwaiting⟩
  · rw [hasleep] at hwoken
    cases hwoken
  · rw [armed] at armed'
    cases armed'
    omega
  · have := hbegun f hf
    rw [hwaiting] at this
    cases this

/-- An insertion keeps what is owed. -/
theorem Owed.insert_other (ho : Owed g now rev a) (wall : Instant) (b : Alert) :
    Owed (g.insert wall b) now rev a where
  fresh := Nat.lt_succ_of_lt ho.fresh
  held := by
    show ∃ e, (g.holdings.insert b).held.get? a.fingerprint = some e ∧ _
    rw [Holdings.get?_insert]
    split
    · exact ⟨_, rfl, .inr ho.fresh⟩
    · exact ho.held
  older := ho.older
  pending := ho.pending.imp_left fun hw => by simp [Group.insert, hw]

theorem flush?_take (g : Group) (number : Nat) (s : Snapshot) :
    Group.flush? { g with flushes := g.flushes.map (·.take number s) } number =
      (g.flush? number).map (·.take number s) := by
  simp only [flush?, List.find?_map, Function.comp_def, number_take]

/-- A flush that begins takes what is owed into its snapshot. -/
theorem Owed.beginFlush (ho : Owed g now rev a) (live : g.isCancelled = false) (number : Nat) :
    g.Covers (.step (.beginFlush number)) rev a ∨ Owed (g.beginFlush number) now rev a := by
  obtain ⟨x, hx, hshows⟩ := ho.held
  have hmem : (a.fingerprint, x) ∈ g.holdings.snapshot := Holdings.mem_snapshot.2 hx
  rcases hf : g.flush? number with _ | ⟨n, context, deadline, _ | s⟩
  · right
    simpa only [Group.beginFlush, hf] using ho
  · left
    have hbegin : g.beginFlush number =
        { g with flushes := g.flushes.map (·.take number g.holdings.snapshot) } := by
      have hne : g.holdings.snapshot.isEmpty = false := by
        rw [List.isEmpty_eq_false_iff_exists_mem]
        exact ⟨_, hmem⟩
      simp [Group.beginFlush, hf, hne, live]
    obtain ⟨-, rfl⟩ := flush?_eq_some hf
    refine ⟨g.holdings.snapshot, x, ⟨n, rfl, by rw [hf]; rfl, ?_⟩, hmem, hshows⟩
    rw [Group.react, step, hbegin, flush?_take, hf, Option.map_some, Option.bind_some,
      snapshot_take, if_pos rfl]
  · right
    simpa only [Group.beginFlush, hf] using ho

/-- Dropping a flush that has its snapshot leaves those that are still to begin. -/
theorem Owed.dropFlush (ho : Owed g now rev a) (numbers : (g.flushes.map (·.number)).Nodup)
    {f : Flush} (mem : f ∈ g.flushes) (taken : f.snapshot ≠ none) :
    Owed (g.dropFlush f.number) now rev a where
  fresh := ho.fresh
  held := ho.held
  older := fun f' hf' => ho.older f' (List.mem_of_mem_filter hf')
  pending := by
    refine ho.pending.imp_right (Or.imp_right ?_)
    intro hbegin
    obtain ⟨f', hf', hwaiting⟩ := hbegin
    refine ⟨f', List.mem_filter.2 ⟨hf', decide_eq_true ?_⟩, hwaiting⟩
    intro hn
    rw [List.inj_on_of_nodup_map numbers hf' mem hn] at hwaiting
    exact taken hwaiting

/-- Settling a snapshot that was taken before leaves what is owed. -/
theorem Owed.settle (ho : Owed g now rev a) {f : Flush} {s : Snapshot} (mem : f ∈ g.flushes)
    (snapshot : f.snapshot = some s) (wall : Instant) :
    Owed { g with holdings := g.holdings.settle s wall } now rev a where
  fresh := ho.fresh
  held := by
    obtain ⟨x, hx, hshows⟩ := ho.held
    refine ⟨x, ?_, hshows⟩
    rw [Holdings.get?_settle, hx, Option.filter_some, if_pos]
    refine decide_eq_true fun p hp hrel => ?_
    obtain ⟨-, heq, -⟩ := hrel
    have := ho.older f mem s snapshot p hp
    have := hshows.le
    omega
  older := ho.older
  pending := ho.pending

/-- A delivery that ends leaves what is owed. -/
theorem Owed.endFlush (ho : Owed g now rev a)
    (hl : Ledger g.holdings g.flushes g.nextFlush h) {number : Nat} (delivered : Bool)
    (delivering : g.isDelivering number = true) : Owed (g.endFlush number delivered) now rev a := by
  rcases hf : g.flush? number with _ | ⟨n, context, deadline, _ | s⟩
  · simp [isDelivering, hf] at delivering
  · simp [isDelivering, hf] at delivering
  · obtain ⟨hmem, rfl⟩ := flush?_eq_some hf
    simp only [Group.endFlush, hf]
    split
    · exact (ho.settle hmem rfl context.now).dropFlush hl.numbers hmem (by simp)
    · exact ho.dropFlush hl.numbers hmem (by simp)

/-- **One event at a time**: a flush takes what is owed, or it stays owed. -/
theorem Owed.react (ho : Owed g m.tick rev a) (hr : Running interval g h) (he : g.Admits m e) :
    g.Covers e rev a ∨ Owed (g.react e) m.tick rev a := by
  obtain ⟨due, armed, ht⟩ := hr.turn he
  generalize hg : g.react e = g' at ht
  cases ht with
  | inserted wall b => exact .inr (ho.insert_other wall b)
  | noticed =>
    exact .inr ⟨ho.fresh, ho.held, ho.older, .inr (.inl ⟨m.tick, rfl, Nat.le_refl _⟩)⟩
  | fired m' le =>
    refine .inr ⟨ho.fresh, ho.held, ?_, .inr (.inr ⟨_, List.mem_concat_self, rfl⟩)⟩
    refine List.forall_mem_append.2 ⟨ho.older, List.forall_mem_singleton.2 ?_⟩
    intro s hs
    cases hs
  | begun number => exact ho.beginFlush hr.live number
  | ended number delivered delivering =>
    exact .inr (ho.endFlush hr.ledger delivered delivering)
  | idle => exact .inr ho

/-- **What is owed is covered** before time goes on. -/
theorem Owed.covered (ho : Owed g now rev a) (hr : Running interval g h)
    (prompt : Prompt flushesLet last g now c) (hlt : now < last) :
    ∃ c₁ x c₂, c = c₁ ++ x :: c₂ ∧ x.1.tick = now ∧ (g.after c₁).Covers x.2 rev a := by
  induction c generalizing g h with
  | nil =>
    obtain ⟨-, hlets⟩ := prompt
    rw [ho.not_lets hr hlt] at hlets
    cases hlets hlt
  | cons x c ih =>
    obtain ⟨⟨hle, hlets⟩, he, hrest⟩ := prompt
    have hnow : x.1.tick = now := by
      rcases Nat.eq_or_lt_of_le hle with heq | hlt
      · exact heq.symm
      · rw [ho.not_lets hr hlt] at hlets
        cases hlets hlt
    rw [← hnow] at ho
    rcases ho.react hr he with hc | ho
    · exact ⟨[], x, c, rfl, hnow, hc⟩
    · rw [hnow] at ho hrest
      obtain ⟨c₁, y, c₂, rfl, hy, hc⟩ := ih ho (hr.react he) hrest
      exact ⟨x :: c₁, y, c₂, rfl, hy, hc⟩

/-- Before the start nothing comes between an insertion and the flush it is owed. -/
theorem Owed.before_start {lets : Group → Nat → Bool} (ho : Owed g now rev a) (hw : Waiting g h)
    (prompt : Prompt lets last g tick (c ++ d)) (still : (g.after c).timer = .unstarted) :
    Owed (g.after c) now rev a := by
  induction c generalizing g h tick with
  | nil => exact ho
  | cons x c ih =>
    obtain ⟨-, he, hrest⟩ := prompt
    have hx := unstarted_of_after (c := c) still
    refine ih ?_ (hw.react hx he) hrest still
    rcases hw.react_eq hx he with ⟨wall, b, heq⟩ | ⟨-, heq⟩
    · rw [heq]
      exact ho.insert_other wall b
    · rwa [heq]

theorem Owed.start (ho : Owed g now rev a) (hw : Waiting g h) (tick : Nat)
    (minInterval : Duration) (wait : g.route.options.groupWait.exceedsClock = false) :
    Owed (g.start tick minInterval) now rev a := by
  rw [start_of_unstarted hw.unstarted wait]
  refine ⟨ho.fresh, ho.held, ho.older, ho.pending.imp_right (Or.imp_left ?_)⟩
  intro hdue
  obtain ⟨due, armed, -⟩ := hdue
  rw [hw.unstarted] at armed
  cases armed

end Owed

section Covered

variable {g : Group} {last now : Nat} {early late b c : Course} {m₀ m : Moment}
  {minInterval : Duration} {wall : Instant} {a : Alert}
  (hw : Waiting g []) (wait : g.route.options.groupWait.exceedsClock = false)
  (fits : (g.route.options.groupInterval.max minInterval).exceedsClock = false)
include hw wait fits

/-- An escalation after the start is covered at its tick. -/
theorem late_covered
    (prompt : Prompt flushesLet last g now
      (early.started m₀ minInterval ++ (b ++ (m, .insert wall a) :: c)))
    (hurges : (g.after (early.started m₀ minInterval ++ b)).urges
      (g.notes (early.started m₀ minInterval ++ b)) (.insert wall a) = true)
    (hlast : m.tick < last) :
    ∃ c₁ x c₂, c = c₁ ++ x :: c₂ ∧ x.1.tick = m.tick ∧
      (g.after (early.started m₀ minInterval ++ b ++ (m, .insert wall a) :: c₁)).Covers x.2
        (g.after (early.started m₀ minInterval ++ b)).holdings.nextRevision a := by
  have hr := hw.running prompt wait fits
  have hlate := prompt.after_start
  have hrb := hr.course hlate
  obtain ⟨-, he, hrest⟩ := hlate.drop
  rw [after_append, notes_append] at hurges
  have hesc := (escalates_eq hrb.ledger wall a).trans hurges
  have ho := Owed.insert hrb.ledger hesc m.tick
  obtain ⟨c₁, x, c₂, rfl, hx, hc⟩ := ho.covered (hrb.react he) hrest hlast
  refine ⟨c₁, x, c₂, rfl, hx, ?_⟩
  rw [after_append, after_append]
  exact hc

/-- An escalation before the start is covered at the tick of the start. -/
theorem early_covered
    (prompt : Prompt flushesLet last g now
      (Course.started (b ++ (m, .insert wall a) :: c) m₀ minInterval ++ late))
    (hurges : (g.after b).urges (g.notes b) (.insert wall a) = true) (hlast : m₀.tick < last) :
    ∃ c₁ x c₂, late = c₁ ++ x :: c₂ ∧ x.1.tick = m₀.tick ∧
      (g.after (Course.started (b ++ (m, .insert wall a) :: c) m₀ minInterval ++ c₁)).Covers x.2
        (g.after b).holdings.nextRevision a := by
  have hr := hw.running prompt wait fits
  have hlate := prompt.after_start
  have hwe := hw.before_start prompt
  have hstill := hwe.unstarted
  rw [after_append] at hstill
  rw [Course.started, List.append_assoc, List.append_assoc] at prompt
  have hwb := hw.course prompt (unstarted_of_after hstill)
  obtain ⟨-, he, hrest⟩ := prompt.drop
  have hesc := (escalates_eq hwb.ledger wall a).trans hurges
  have ho := Owed.insert hwb.ledger hesc m₀.tick
  have hwi := hwb.react (e := .insert wall a) hwb.unstarted he
  have ho := ho.before_start hwi hrest hstill
  have ho : Owed (g.after (b ++ (m, .insert wall a) :: c)) m₀.tick
      (g.after b).holdings.nextRevision a := by
    rw [after_append]
    exact ho
  have ho := ho.start hwe m₀.tick minInterval (by rwa [route_after])
  rw [← after_started] at ho
  obtain ⟨c₁, x, c₂, rfl, hx, hc⟩ := ho.covered hr hlate hlast
  refine ⟨c₁, x, c₂, rfl, hx, ?_⟩
  rwa [after_append]

end Covered

/-- **An escalated alert never waits.** Once an insertion has escalated, time does not go on beyond
its tick, or beyond that of the start if this comes later, before a flush has taken a snapshot that
shows the insertion or a later version of the alert. -/
theorem escalated_covered (labels : LabelSet) (route : Route) (serial : Nat)
    (minInterval : Duration) (early late : Course) (m₀ : Moment) (last : Nat)
    (fits : (route.options.groupInterval.max minInterval).exceedsClock = false)
    (prompt : Prompt flushesLet last { labels, route, serial } 0
      (early.started m₀ minInterval ++ late)) :
    let g : Group := { labels, route, serial }
    ∀ b m wall a c, early.started m₀ minInterval ++ late = b ++ (m, .insert wall a) :: c →
      (g.after b).urges (g.notes b) (.insert wall a) = true → max m₀.tick m.tick < last →
      ∃ c₁ x c₂, c = c₁ ++ x :: c₂ ∧ x.1.tick = max m₀.tick m.tick ∧
        (g.after (b ++ (m, .insert wall a) :: c₁)).Covers x.2
          (g.after b).holdings.nextRevision a := by
  intro g b m wall a c hb hurges hlast
  have hw : Waiting g [] := .new labels route serial
  have hwait : route.options.groupWait.exceedsClock = false := by
    rw [urges, Bool.and_eq_true, route_after] at hurges
    exact Alert.exceedsClock_of_hasWaited hurges.2
  rw [Course.started, List.append_assoc] at hb
  rcases append_cons_eq hb with ⟨c', rfl, rfl⟩ | ⟨-, hstart, -⟩ | ⟨b', rfl, rfl⟩
  · -- inserted before the start
    have hm : m.tick ≤ m₀.tick := by
      rw [Course.started, List.append_assoc] at prompt
      exact prompt.take.tick_le_last (x := (m, .insert wall a)) (by simp)
    rw [Nat.max_eq_left hm] at hlast ⊢
    obtain ⟨c₁, x, c₂, rfl, hx, hc⟩ := early_covered hw hwait fits prompt hurges hlast
    refine ⟨c' ++ (m₀, .start m₀.tick minInterval) :: c₁, x, c₂, by simp, hx, ?_⟩
    simpa [Course.started] using hc
  · cases hstart
  · -- inserted after the start
    have hsplit : early ++ (m₀, .start m₀.tick minInterval) :: b' =
        early.started m₀ minInterval ++ b' := by simp [Course.started]
    have hm : m₀.tick ≤ m.tick :=
      prompt.after_start.le_tick (x := (m, .insert wall a)) (by simp)
    rw [Nat.max_eq_right hm] at hlast ⊢
    simp only [hsplit] at hurges ⊢
    exact late_covered hw hwait fits prompt hurges hlast

/-- An alert that has waited is inserted when the timer is due, so that the firing takes notice of
the wake-up too. -/
theorem coinciding_escalation_covered :
    let g := newAt (timedRoute (.ofSecs 60) (.ofSecs 300))
    let c := [firedAt 60, (secondsIn 60, .step (.beginFlush 0))]
    let inserted := (secondsIn 60, .insert ⟨60, 0⟩ (alertFrom "B" (-60)))
    ∃ c₁ x c₂, c = c₁ ++ x :: c₂ ∧ x.1.tick = 60000 ∧
      (g.after (startedWithAlert ++ inserted :: c₁)).Covers x.2 1 (alertFrom "B" (-60)) := by
  intro g c inserted
  exact escalated_covered .empty (timedRoute (.ofSecs 60) (.ofSecs 300)) 0 .zero
    [(secondsIn 0, .insert ⟨0, 0⟩ (alertFrom "A" 0))] (inserted :: c) (secondsIn 0) 70000
    (by decide +kernel) (by decide +kernel) startedWithAlert (secondsIn 60) ⟨60, 0⟩
    (alertFrom "B" (-60)) c rfl (by decide +kernel) (by decide +kernel)

/-- With an interval beyond the range of the clock, the timer ends in taking notice of an
escalation, and time goes on without a flush. -/
theorem endless_interval_leaves_escalation :
    let g := newAt (timedRoute (.ofSecs 3600) endlessInterval)
    let inserted := (secondsIn 7200, .insert ⟨7200, 0⟩ (alertFrom "A" 0))
    let c := [(secondsIn 7200, .start 7200000 .zero), (secondsIn 7200, .step (.wake 7200000)),
      firedAt 7200]
    Prompt flushesLet 7300000 g 0 (inserted :: c) ∧
      g.urges [] (.insert ⟨7200, 0⟩ (alertFrom "A" 0)) = true ∧
      ¬ ∃ c₁ x c₂, c = c₁ ++ x :: c₂ ∧
        (g.after (inserted :: c₁)).Covers x.2 0 (alertFrom "A" 0) := by
  intro g inserted c
  refine ⟨by decide +kernel, by decide +kernel, ?_⟩
  intro h
  obtain ⟨c₁, x, c₂, hc, s, e, ⟨number, hx, -⟩, -⟩ := h
  have hmem : x ∈ c := hc ▸ List.mem_append_right c₁ List.mem_cons_self
  have hnone : ∀ y ∈ c, y.2 ≠ .step (.beginFlush number) := by simp [c, firedAt]
  exact hnone x hmem hx

end AlertFlow.Group
