import AlertFlow.Proofs.Engine.Strays
import AlertFlow.Proofs.Group.Calls

/-!
What each group of a run of the engine lives through. From its creation on, the events of the engine
that concern a group are a run of the group by itself, and what is noted of them is the history of
that run.
-/
namespace AlertFlow.Engine

variable {e : Engine} {α β : Type} {f : Engine → Event → List α}

/-! ## Logs -/

/-- What is put down of the events of a run, in their order. -/
def log (f : Engine → Event → List α) : Engine → List Event → List α
  | _, [] => []
  | e, x :: events => f e x ++ log f (e.react x) events

theorem log_append (e : Engine) (xs ys : List Event) :
    log f e (xs ++ ys) = log f e xs ++ log f (e.run xs) ys := by
  induction xs generalizing e with
  | nil => rfl
  | cons x xs ih =>
    rw [List.cons_append, log, ih, log, List.append_assoc, run, run, List.foldl_cons]

theorem log_concat (e : Engine) (events : List Event) (x : Event) :
    log f e (events ++ [x]) = log f e events ++ f (e.run events) x := by
  rw [log_append, log, log, List.append_nil]

/-- What is in a log was put down of one of the events. -/
theorem mem_log {events : List Event} {y : α} : y ∈ log f e events ↔
    ∃ before x after, events = before ++ x :: after ∧ y ∈ f (e.run before) x := by
  induction events generalizing e with
  | nil => simp [log]
  | cons z events ih =>
    rw [log, List.mem_append, ih]
    constructor
    · intro h
      rcases h with h | ⟨before, x, after, rfl, h⟩
      · exact ⟨[], z, events, rfl, h⟩
      · exact ⟨z :: before, x, after, rfl, h⟩
    · intro h
      obtain ⟨_ | ⟨z', before⟩, x, after, heq, h⟩ := h
      · cases heq
        exact .inl h
      · cases heq
        exact .inr ⟨before, x, after, rfl, h⟩

/-- A log has nothing twice if no event puts down anything twice, or what an earlier one has. -/
theorem nodup_log {key : α → β} (events : List Event)
    (once : ∀ before x, ((f (e.run before) x).map key).Nodup)
    (fresh : ∀ before x between y, ∀ a ∈ f (e.run before) x,
      ∀ b ∈ f (e.run (before ++ x :: between)) y, key a ≠ key b) :
    ((log f e events).map key).Nodup := by
  induction events using List.reverseRecOn with
  | nil => exact List.nodup_nil
  | append_singleton events y ih =>
    rw [log_concat, List.map_append, List.nodup_append]
    refine ⟨ih, once events y, fun k hk k' hk' => ?_⟩
    obtain ⟨a, ha, rfl⟩ := List.mem_map.1 hk
    obtain ⟨b, hb, rfl⟩ := List.mem_map.1 hk'
    obtain ⟨before, x, between, rfl, hold⟩ := mem_log.1 ha
    exact fresh before x between y a hold b hb

/-! ## The histories of groups -/

/-- The group of a number. -/
def group? (e : Engine) (serial : Nat) : Option Group := e.allGroups.find? (·.serial = serial)

theorem Numbered.group?_eq_some (hn : Numbered e) {serial : Nat} {g : Group} :
    e.group? serial = some g ↔ g ∈ e.allGroups ∧ g.serial = serial := by
  constructor
  · intro h
    exact ⟨List.mem_of_find?_eq_some h, by simpa using List.find?_some h⟩
  · intro h
    obtain ⟨hmem, rfl⟩ := h
    obtain ⟨g', hg'⟩ : ∃ g', e.group? g.serial = some g' := by
      rw [← Option.isSome_iff_exists, group?, List.find?_isSome]
      exact ⟨g, hmem, by simp⟩
    have hserial : g'.serial = g.serial := by simpa using List.find?_some hg'
    rw [hg', hn.eq_of_serial (List.mem_of_find?_eq_some hg') hmem hserial]

/-- What is noted of the group of a number when an event is about to happen: an alert may be
inserted into it, or it takes a step. -/
def note? (e : Engine) (serial : Nat) : Event → Option Group.Note
  | .sort m a route =>
    match e.mainLoop with
    | some ⟨_, isCancelled, _, none⟩ =>
      if (e.taker m isCancelled a.labels route).serial = serial then some (.inserted a) else none
    | _ => none
  | .step (.group n s) =>
    if n = serial then (e.group? serial).bind (·.note? (.step s)) else none
  | _ => none

/-- What is noted of the group of a number during a run. -/
def history (e : Engine) (serial : Nat) : List Event → List Group.Note :=
  log (fun e x => (e.note? serial x).toList) e

theorem history_concat (e : Engine) (serial : Nat) (events : List Event) (x : Event) :
    e.history serial (events ++ [x]) =
      e.history serial events ++ ((e.run events).note? serial x).toList :=
  log_concat e events x

theorem history_append (e : Engine) (serial : Nat) (xs ys : List Event) :
    e.history serial (xs ++ ys) = e.history serial xs ++ (e.run xs).history serial ys :=
  log_append e xs ys

theorem mem_allGroups_taker (hk : e.groups.Keyed) (m : Moment) (c : Bool) (a : Alert) (r : Route) :
    (e.taker m c a.labels r).insert m.wall a ∈ (sort m c a e r).allGroups := by
  have hplace := find?_sort (m := m) (c := c) (a := a) hk r r.id (r.grouping a.labels).fingerprint
  rw [if_pos ⟨rfl, rfl⟩] at hplace
  exact mem_allGroups.2 (.inl ⟨_, _, hplace⟩)

/-- After an alert was sorted in, its group has it, and the others are those of other numbers. -/
theorem sorted_or_other (hk : e.groups.Keyed) {m : Moment} {c : Bool} {a : Alert} {r : Route}
    (hn' : Numbered (sort m c a e r)) {g : Group} (h : g ∈ (sort m c a e r).allGroups) :
    g = (e.taker m c a.labels r).insert m.wall a ∨
      (g ∈ e.allGroups ∧ (e.taker m c a.labels r).serial ≠ g.serial) := by
  by_cases hserial : (e.taker m c a.labels r).serial = g.serial
  · exact .inl (hn'.eq_of_serial h (mem_allGroups_taker hk m c a r) hserial.symm)
  · rcases mem_allGroups_sort hk h with rfl | hold
    · exact absurd rfl hserial
    · exact .inr ⟨hold, hserial⟩

section

variable {h : Nat → List Group.Note}

theorem lived_taker (hnew : h e.created = []) (hl : ∀ g ∈ e.allGroups, g.Lived (h g.serial))
    (m : Moment) (c : Bool) (labels : LabelSet) (r : Route) :
    (e.taker m c labels r).Lived (h (e.taker m c labels r).serial) := by
  unfold taker
  cases hf : e.groups.find? r.id (r.grouping labels).fingerprint with
  | some g => exact hl g (mem_allGroups.2 (.inl ⟨_, _, hf⟩))
  | none =>
    rw [Option.getD_none, serial_newGroup, hnew, newGroup_eq]
    exact (Group.Lived.new _ _ _ _).react (.start _ _)

/-- What is noted of a group in a step: nothing if it stays as it is, and otherwise what is noted of
the event to which it reacts, which is no insertion. -/
theorem Moved.noted (hn : Numbered e) {s : Step} {g g' : Group} (hg : g ∈ e.allGroups)
    (hm : Moved s g g') :
    (g' = g ∧ e.note? g.serial (.step s) = none) ∨
      ∃ ev, g' = g.react ev ∧ e.note? g.serial (.step s) = g.note? ev ∧
        ∀ a, g.note? ev ≠ some (.inserted a) := by
  cases hm with
  | still other =>
    refine .inl ⟨rfl, ?_⟩
    cases s with
    | group n s' =>
      refine if_neg fun heq => ?_
      subst heq
      exact other s' rfl
    | _ => rfl
  | cancelled other =>
    refine .inr ⟨.cancel, rfl, ?_, by simp [Group.note?]⟩
    cases s with
    | group n s => exact absurd rfl (other n s)
    | _ => rfl
  | stepped s' own =>
    refine .inr ⟨.step s', rfl, ?_, g.note?_step_ne_inserted s'⟩
    rw [own]
    simp only [note?, if_true, hn.group?_eq_some.2 ⟨hg, rfl⟩, Option.bind_some]

/-- The history of a group that takes a step goes on with what is noted of the step. -/
theorem lived_step (hn : Numbered e) (hl : ∀ g ∈ e.allGroups, g.Lived (h g.serial)) (s : Step)
    {g' : Group} (hg' : g' ∈ (e.step s).allGroups) :
    g'.Lived (h g'.serial ++ (e.note? g'.serial (.step s)).toList) := by
  obtain ⟨g, hg, hm⟩ := moved_step hg'
  rw [hm.carried.serial_eq]
  rcases hm.noted hn hg with ⟨rfl, hnote⟩ | ⟨ev, rfl, hnote, -⟩
  · rw [hnote]
    simpa using hl _ hg
  · rw [hnote]
    exact (hl g hg).react ev

/-- What is noted of an alert that is sorted in: it is inserted into the group that takes it up. -/
theorem note?_sort {loop : MainLoop} (on : e.mainLoop = some loop) (free : loop.sweep = none)
    (serial : Nat) (m : Moment) (a : Alert) (r : Route) :
    e.note? serial (.sort m a r) =
      if (e.taker m loop.isCancelled a.labels r).serial = serial then some (.inserted a)
      else none := by
  obtain ⟨run, c, nextSweep, sweep⟩ := loop
  cases free
  simp only [note?, on]

/-- The history of the group that takes up an alert goes on with the alert. -/
theorem lived_sort (hk : e.groups.Keyed) (hnew : h e.created = [])
    (hl : ∀ g ∈ e.allGroups, g.Lived (h g.serial)) {loop : MainLoop}
    (on : e.mainLoop = some loop) (free : loop.sweep = none) {m : Moment} {a : Alert} {r : Route}
    (hn' : Numbered (sort m loop.isCancelled a e r)) {g' : Group}
    (hg' : g' ∈ (sort m loop.isCancelled a e r).allGroups) :
    g'.Lived (h g'.serial ++ (e.note? g'.serial (.sort m a r)).toList) := by
  rw [note?_sort on free]
  rcases sorted_or_other hk hn' hg' with rfl | ⟨hold, hserial⟩
  · have htaker := lived_taker hnew hl m loop.isCancelled a.labels r
    have hown : (e.taker m loop.isCancelled a.labels r).serial =
      ((e.taker m loop.isCancelled a.labels r).insert m.wall a).serial := rfl
    rw [if_pos hown]
    exact htaker.react (.insert m.wall a)
  · rw [if_neg hserial]
    simpa using hl g' hold

/-- The history of every group goes on with what is noted of it. -/
theorem lived_react (hn : Numbered e) (hnew : h e.created = [])
    (hl : ∀ g ∈ e.allGroups, g.Lived (h g.serial)) (x : Event) {g' : Group}
    (hg' : g' ∈ (e.react x).allGroups) :
    g'.Lived (h g'.serial ++ (e.note? g'.serial x).toList) := by
  have unnoted : g' ∈ e.allGroups → e.note? g'.serial x = none →
      g'.Lived (h g'.serial ++ (e.note? g'.serial x).toList) := by
    intro hmem hnone
    rw [hnone]
    simpa using hl g' hmem
  have hn' := hn.react x
  cases x with
  | begin tick =>
    refine unnoted ?_ rfl
    simp only [react] at hg'
    split at hg'
    · exact hg'
    · exact mem_allGroups_begin hg'
  | finish =>
    refine unnoted ?_ rfl
    simp only [react] at hg'
    split at hg'
    · exact mem_allGroups_endLoop hg'
    · exact hg'
  | sort m a r =>
    rcases on : e.mainLoop with _ | ⟨run, c, nextSweep, _ | sw⟩
    · simp only [react, on] at hg'
      exact unnoted hg' (by simp only [note?, on])
    · simp only [react, on] at hg' hn'
      exact lived_sort hn.keyed hnew hl on rfl hn' hg'
    · simp only [react, on] at hg'
      exact unnoted hg' (by simp only [note?, on])
  | step s => exact lived_step hn hl s hg'

end

/-- Nothing is noted of a number before a group has it. -/
theorem lt_created_of_note? (hn : Numbered e) {serial : Nat} {x : Event} {n : Group.Note}
    (h : e.note? serial x = some n) : serial < (e.react x).created := by
  have hn' := hn.react x
  cases x with
  | begin tick => cases h
  | finish => cases h
  | sort m a r =>
    rcases on : e.mainLoop with _ | ⟨run, c, nextSweep, _ | sw⟩
    · simp [note?, on] at h
    · rw [note?_sort on rfl] at h
      split at h
      · next hserial =>
        simp only [react, on] at hn' ⊢
        have hlt := hn'.bound _ (List.mem_map_of_mem (mem_allGroups_taker hn.keyed m c a r))
        exact hserial ▸ hlt
      · cases h
    · simp [note?, on] at h
  | step s =>
    cases s with
    | group k s =>
      simp only [note?] at h
      split at h
      · obtain ⟨g, hg, -⟩ := Option.bind_eq_some_iff.1 h
        obtain ⟨hmem, rfl⟩ := hn.group?_eq_some.1 hg
        have hle : e.created ≤ (e.react (.step (.group k s))).created :=
          created_le_run hn.keyed [.step (.group k s)]
        exact Nat.lt_of_lt_of_le (hn.bound _ (List.mem_map_of_mem hmem)) hle
      · cases h
    | _ => cases h

theorem history_of_created_le (hn : Numbered e) {serial : Nat} (events : List Event)
    (h : (e.run events).created ≤ serial) : e.history serial events = [] := by
  induction events using List.reverseRecOn with
  | nil => rfl
  | append_singleton events x ih =>
    rw [run_concat] at h
    have hle : (e.run events).created ≤ ((e.run events).react x).created :=
      created_le_run (hn.run events).keyed [x]
    rw [history_concat, ih (Nat.le_trans hle h)]
    cases hnote : (e.run events).note? serial x with
    | none => rfl
    | some n =>
      have hlt := lt_created_of_note? (hn.run events) hnote
      omega

/-- **The history of every group** of a run is that of a run of the group by itself. -/
theorem lived_run (tree : Route) (settings : EngineSettings) (events : List Event) {g : Group}
    (hg : g ∈ (Engine.run { tree, settings } events).allGroups) :
    g.Lived (history { tree, settings } g.serial events) := by
  induction events using List.reverseRecOn generalizing g with
  | nil => cases (hg : g ∈ [])
  | append_singleton events x ih =>
    rw [run_concat] at hg
    rw [history_concat]
    have hn := numbered_run tree settings events
    refine lived_react (h := fun n => history { tree, settings } n events) hn ?_
      (fun g hg => ih hg) x hg
    exact history_of_created_le (.start tree settings) events (Nat.le_refl _)

end AlertFlow.Engine
