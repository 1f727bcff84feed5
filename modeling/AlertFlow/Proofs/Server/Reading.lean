import AlertFlow.Proofs.Alert.Store
import AlertFlow.Proofs.Engine.Receive
import AlertFlow.Proofs.Server.Run
import Mathlib.Algebra.GroupWithZero.Nat

/-!
What the main loop gets to read. In a run of the main loop the stored alerts come first and then
those put since, in order. A reading that comes too late skips alerts and comes with an error that
counts them; the engine passes over the alert that comes with the error. So what the engine has not
taken up, once the main loop has read all there is, are the alerts that the errors count and the one
alert that came with each of them.
-/
namespace AlertFlow

/-- How readings go through alerts in the order in which they were sent, with the alerts that are
lost: those skipped by a reading, and the one that it gave with its error. -/
inductive Passage : List Alert → List (Alert × Option StreamError) → List Alert → Prop where
  | start : Passage [] [] []
  | inTime {sent readings lost} (a : Alert) : Passage sent readings lost →
      Passage (sent ++ [a]) (readings ++ [(a, none)]) lost
  | late {sent readings lost} (skipped : List Alert) (a : Alert) : skipped ≠ [] →
      Passage sent readings lost →
      Passage (sent ++ skipped ++ [a]) (readings ++ [(a, some (.lagged skipped.length))])
        (lost ++ skipped ++ [a])

namespace Passage

variable {sent : List Alert} {readings : List (Alert × Option StreamError)} {lost : List Alert}

/-- How many alerts are lost by a reading with an error, or without one. -/
def loss : Option StreamError → Nat
  | some (.lagged skipped) => skipped + 1
  | _ => 0

theorem length_lost (h : Passage sent readings lost) :
    lost.length = (readings.map fun x => loss x.2).sum := by
  induction h with
  | start => rfl
  | inTime a _ ih => simp [ih, loss]
  | late skipped a _ _ ih =>
    simp only [List.map_append, List.sum_append, List.length_append, ih]
    simp [loss, Nat.add_assoc]

/-- Every alert sent is read without an error or lost, and no other is. -/
theorem perm (h : Passage sent readings lost) : sent.Perm (Server.accepted readings ++ lost) := by
  induction h with
  | start => exact .nil
  | @inTime sent readings lost a _ ih =>
    rw [Server.accepted_concat, List.append_assoc]
    refine (ih.append_right [a]).trans ?_
    rw [List.append_assoc]
    exact List.perm_append_comm.append_left _
  | @late sent readings lost skipped a _ _ ih =>
    rw [Server.accepted_concat_error]
    simpa using ih.append_right (skipped ++ [a])

theorem mem_sent (h : Passage sent readings lost) {x : Alert × Option StreamError}
    (hx : x ∈ readings) : x.1 ∈ sent := by
  induction h with
  | start => exact absurd hx List.not_mem_nil
  | inTime a _ ih =>
    rcases List.mem_append.1 hx with hx | hx
    · exact List.mem_append_left _ (ih hx)
    · obtain rfl := List.mem_singleton.1 hx
      exact List.mem_append_right _ List.mem_cons_self
  | late skipped a _ _ ih =>
    rcases List.mem_append.1 hx with hx | hx
    · exact List.mem_append_left _ (List.mem_append_left _ (ih hx))
    · obtain rfl := List.mem_singleton.1 hx
      exact List.mem_append_right _ List.mem_cons_self

/-- Readings that are all in time give the alerts as they were sent. -/
theorem sent_eq (h : Passage sent readings lost) (ht : ∀ x ∈ readings, x.2 = none) :
    sent = readings.map Prod.fst := by
  induction h with
  | start => rfl
  | inTime a _ ih =>
    rw [ih fun x hx => ht x (List.mem_append_left _ hx), List.map_append]
    rfl
  | late skipped a _ _ ih =>
    have := ht _ (List.mem_append_right _ List.mem_cons_self)
    cases this

/-- Readings that have gone through the first alerts of some go on in time with the one behind. -/
theorem take_inTime {n : Nat} {a : Alert} (h : Passage (sent.take n) readings lost)
    (ha : sent[n]? = some a) : Passage (sent.take (n + 1)) (readings ++ [(a, none)]) lost := by
  rw [List.take_add_one, ha]
  exact .inTime a h

/-- Readings that have gone through the first alerts of some go on, too late, with a further one. -/
theorem take_late {n k : Nat} {a : Alert} (h : Passage (sent.take n) readings lost)
    (ha : sent[n + (k + 1)]? = some a) : ∃ lost',
      Passage (sent.take (n + (k + 1) + 1)) (readings ++ [(a, some (.lagged (k + 1)))]) lost' := by
  obtain ⟨skipped, hskipped⟩ : ∃ skipped, skipped = (sent.drop n).take (k + 1) := ⟨_, rfl⟩
  have hlength : skipped.length = k + 1 := by
    have hin := (List.getElem?_eq_some_iff.1 ha).1
    rw [hskipped, List.length_take, List.length_drop]
    omega
  rw [List.take_add_one, ha, List.take_add, ← hskipped, ← hlength]
  exact ⟨_, .late skipped a (List.ne_nil_of_length_eq_add_one hlength) h⟩

end Passage

namespace Server

/-! ## Where a reader stands -/

/-- A subscription that was opened when so many alerts had been sent, seen from the log. -/
structure Reader (sub : Subscription) (base : Nat) (l : Log) : Prop where
  error : sub.error = none
  read : ∃ done live n lost, l.stored = done ++ sub.replay ∧
    l.read = done.map (·, none) ++ live ∧ (sub.replay ≠ [] → live = []) ∧
    sub.position = some (base + n) ∧ n ≤ l.sent.length ∧ Passage (l.sent.take n) live lost

namespace Reader

variable {sub : Subscription} {l : Log} {f : Feed} {before : List Alert}

/-- What was read was stored when the run began or sent since. -/
theorem mem_of_read {base : Nat} (h : Reader sub base l) {x : Alert × Option StreamError}
    (hx : x ∈ l.read) : x.1 ∈ l.stored ++ l.sent := by
  obtain ⟨done, live, n, lost, hstored, hread, -, -, -, hp⟩ := h.read
  rw [hread] at hx
  rcases List.mem_append.1 hx with hx | hx
  · obtain ⟨a, ha, rfl⟩ := List.mem_map.1 hx
    rw [hstored]
    exact List.mem_append_left _ (List.mem_append_left _ ha)
  · exact List.mem_append_right _ (List.mem_of_mem_take (hp.mem_sent hx))

theorem send (h : Reader sub before.length l) (batch : List Alert) :
    Reader sub before.length { l with sent := l.sent ++ batch } := by
  obtain ⟨done, live, n, lost, hstored, hread, hlive, hpos, hn, hp⟩ := h.read
  refine ⟨h.error, done, live, n, lost, hstored, hread, hlive, hpos, ?_, ?_⟩
  · rw [List.length_append]
    exact Nat.le_add_right_of_le hn
  · rwa [List.take_append_of_le_length hn]

/-- A reading gives an alert and leaves the reader in its place behind it, or there is nothing to
read; then everything was read. -/
theorem next (h : Reader sub before.length l) (hc : f.Carries (before ++ l.sent)) :
    (∃ a sub', sub.next f = (.alert a, sub') ∧
      Reader { sub' with error := none } before.length
        { l with read := l.read ++ [(a, sub'.error)] }) ∨
    (sub.next f = (.pending, sub) ∧
      ∃ live lost, l.read = l.stored.map (·, none) ++ live ∧ Passage l.sent live lost) := by
  obtain ⟨done, live, n, lost, hstored, hread, hlive, hpos, hn, hp⟩ := h.read
  cases hreplay : sub.replay with
  | cons a rest =>
    -- alerts stored at the beginning are still to be read
    refine .inl ⟨a, { sub with replay := rest }, ?_, rfl, ?_⟩
    · simp [Subscription.next, hreplay]
    · refine ⟨done ++ [a], live, n, lost, ?_, ?_, ?_, hpos, hn, hp⟩
      · simp [hstored, hreplay]
      · simp [hread, hlive (by simp [hreplay]), h.error]
      · exact fun _ => hlive (by simp [hreplay])
  | nil =>
    -- the reader stands behind the first `n` alerts sent since
    have hend : l.stored = done := by simpa [hreplay] using hstored
    have hat : ∀ k, (before ++ l.sent)[before.length + k]? = l.sent[k]? := by
      intro k
      rw [List.getElem?_append_right (Nat.le_add_right _ _), Nat.add_sub_cancel_left]
    rcases Nat.lt_or_ge (before.length + n) f.dropped with hlt | hle
    · -- the alerts between the reader and the oldest one held are skipped
      obtain ⟨a, ha, hnext⟩ := Subscription.next_of_lt_dropped hc hreplay hpos hlt
      obtain ⟨k, hk⟩ := Nat.exists_eq_add_of_lt hlt
      have hdropped : f.dropped = before.length + (n + (k + 1)) := by omega
      have hgap : f.dropped - (before.length + n) = k + 1 := by omega
      rw [hgap] at hnext
      rw [hdropped, hat] at ha
      obtain ⟨lost', hp'⟩ := hp.take_late ha
      have hin : n + (k + 1) < l.sent.length := (List.getElem?_eq_some_iff.1 ha).1
      refine .inl ⟨a, _, hnext, rfl, done, live ++ [(a, some (.lagged (k + 1)))],
        n + (k + 1) + 1, lost', hstored, ?_, ?_, ?_, hin, hp'⟩
      · simp [hread]
      · simp [hreplay]
      · simp [hdropped, Nat.add_assoc]
    · have hnext := Subscription.next_of_dropped_le hc hreplay hpos hle
      rw [hat] at hnext
      cases ha : l.sent[n]? with
      | some a =>
        rw [ha] at hnext
        have hin : n < l.sent.length := (List.getElem?_eq_some_iff.1 ha).1
        refine .inl ⟨a, _, hnext, rfl, done, live ++ [(a, none)], n + 1, lost, hstored, ?_, ?_, ?_,
          hin, hp.take_inTime ha⟩
        · simp [hread, h.error]
        · simp [hreplay]
        · simp [Nat.add_assoc]
      | none =>
        rw [ha] at hnext
        have hall : l.sent.take n = l.sent :=
          List.take_of_length_le (List.getElem?_eq_none_iff.1 ha)
        rw [hall] at hp
        exact .inr ⟨hnext, live, lost, hend ▸ hread, hp⟩

end Reader

/-- A log that tells how a server came to where it stands. -/
structure Tracked (s : Server) (l : Log) : Prop where
  looping : s.subscription.isSome = s.engine.mainLoop.isSome
  feed : ∃ before, s.alerts.feed.Carries (before ++ l.sent) ∧
    ∀ sub, s.subscription = some sub → Reader sub before.length l

theorem reading?_eq_some {s : Server} {a : Alert} {error : Option StreamError} :
    s.reading? = some (a, error) ↔ ∃ loop sub sub', s.engine.mainLoop = some loop ∧
      loop.sweep = none ∧ s.subscription = some sub ∧
      sub.next s.alerts.feed = (.alert a, sub') ∧ sub'.error = error := by
  unfold reading?
  constructor
  · intro h
    split at h
    · next loop hsub =>
      split at h
      · next hnext =>
        cases h
        exact ⟨_, _, _, loop, rfl, hsub, hnext, rfl⟩
      · cases h
    · cases h
  · intro h
    obtain ⟨⟨run, isCancelled, nextSweep, sweep⟩, sub, sub', hloop, rfl, hsub, hnext, rfl⟩ := h
    simp only [hloop, hsub, hnext]

theorem readStream_eq {s : Server} {loop : MainLoop} {sub sub' : Subscription} {a : Alert}
    (hloop : s.engine.mainLoop = some loop) (free : loop.sweep = none)
    (hsub : s.subscription = some sub) (hnext : sub.next s.alerts.feed = (.alert a, sub'))
    (m : Moment) : s.readStream m =
      { s with
        engine := s.engine.receive m a sub'.error
        subscription := some { sub' with error := none } } := by
  obtain ⟨run, isCancelled, nextSweep, sweep⟩ := loop
  obtain rfl : sweep = none := free
  simp only [readStream, hloop, hsub, hnext, Subscription.takeError]

namespace Tracked

variable {s : Server} {l : Log}

theorem setUp (buffer : Nat) (tree : Route) (settings : EngineSettings) :
    Tracked (setUp buffer tree settings) {} where
  looping := rfl
  feed := ⟨[], .ofCapacity buffer, by simp [Server.setUp]⟩

/-- If the main loop gets nothing to read, its attempt changes nothing. -/
theorem readStream_of_reading?_eq_none (h : Tracked s l) (hnone : s.reading? = none) (m : Moment) :
    s.readStream m = s := by
  obtain ⟨before, hc, hreader⟩ := h.feed
  rcases s with ⟨alerts, engine, _ | sub, events, marker⟩
  · unfold readStream
    split
    · next hsub => cases hsub
    · rfl
  · unfold readStream
    split
    · next loop sub' hloop hsub =>
      cases hsub
      rcases (hreader sub rfl).next hc with ⟨a, sub', hnext, -⟩ | ⟨hnext, -⟩
      · have : reading? ⟨alerts, engine, some sub, events, marker⟩ = some (a, sub'.error) :=
          reading?_eq_some.2 ⟨_, sub, sub', hloop, rfl, rfl, hnext, rfl⟩
        rw [hnone] at this
        cases this
      · simp only [hnext]
    · rfl

theorem readStream (h : Tracked s l) (m : Moment) :
    Tracked (s.readStream m) { l with read := l.read ++ s.reading?.toList } := by
  cases hread : s.reading? with
  | none =>
    rw [h.readStream_of_reading?_eq_none hread]
    simpa using h
  | some x =>
    obtain ⟨a, error⟩ := x
    obtain ⟨before, hc, hreader⟩ := h.feed
    obtain ⟨loop, sub, sub', hloop, free, hsub, hnext, rfl⟩ := reading?_eq_some.1 hread
    rw [readStream_eq hloop free hsub hnext]
    refine ⟨by simp [hloop], before, hc, ?_⟩
    intro sub'' heq
    cases heq
    rcases (hreader sub hsub).next hc with ⟨a', sub'', hnext', hr⟩ | ⟨hnext', -⟩
    · rw [hnext] at hnext'
      cases hnext'
      exact hr
    · rw [hnext] at hnext'
      cases hnext'

/-- The log goes on telling where the server stands, event by event. -/
theorem react (h : Tracked s l) (e : Event) : Tracked (s.react e) (l.enter s e) := by
  obtain ⟨before, hc, hreader⟩ := h.feed
  cases e with
  | put batch =>
    refine ⟨h.looping, before, ?_, fun sub hsub => (hreader sub hsub).send batch⟩
    show (s.alerts.put batch).feed.Carries (before ++ (l.sent ++ batch))
    rw [← List.append_assoc]
    exact hc.put batch
  | mark f => exact ⟨h.looping, before, hc, hreader⟩
  | begin tick =>
    cases hloop : s.engine.mainLoop.isSome with
    | true => simpa [Server.react, Log.enter, hloop] using h
    | false =>
      simp only [Server.react, Log.enter, hloop, Bool.false_eq_true, if_false]
      -- the new run counts from what the feed has carried so far
      refine ⟨by simp [Server.begin], before ++ l.sent, by simpa [Server.begin] using hc, ?_⟩
      intro sub heq
      obtain ⟨loop, -, rfl⟩ := Option.map_eq_some_iff.1 heq
      refine ⟨rfl, [], [], 0, [], rfl, rfl, fun _ => rfl, ?_, Nat.le_refl 0, .start⟩
      exact congrArg some hc.sent_eq
  | read m => exact h.readStream m
  | endRun =>
    simp only [Server.react, Server.endRun, Log.enter]
    split
    · split
      · exact ⟨rfl, before, hc, by simp⟩
      · exact h
    · exact h
  | engine step =>
    refine ⟨?_, before, hc, hreader⟩
    simpa [Server.react] using h.looping

/-- Once all is read, the readings have gone through all alerts sent. -/
theorem passage_of_isDrained (h : Tracked s l) (hd : s.isDrained = true) :
    ∃ live lost, l.read = l.stored.map (·, none) ++ live ∧ Passage l.sent live lost := by
  obtain ⟨before, hc, hreader⟩ := h.feed
  unfold isDrained at hd
  split at hd
  · next sub hsub =>
    rcases (hreader sub hsub).next hc with ⟨a, sub', hnext, -⟩ | ⟨-, hpassage⟩
    · simp [hnext] at hd
    · exact hpassage
  · cases hd

end Tracked

theorem tracked_run (buffer : Nat) (tree : Route) (settings : EngineSettings)
    (events : List Event) :
    Tracked ((setUp buffer tree settings).run events)
      ((setUp buffer tree settings).log events) := by
  induction events using List.reverseRecOn with
  | nil => exact .setUp buffer tree settings
  | append_singleton events e ih =>
    rw [run_concat, log_concat]
    exact ih.react e

/-- Whatever the main loop has read was stored when its run began or sent since. -/
theorem mem_of_read (buffer : Nat) (tree : Route) (settings : EngineSettings)
    (events : List Event) :
    ∀ x ∈ ((setUp buffer tree settings).log events).read,
      x.1 ∈ ((setUp buffer tree settings).log events).stored ++
        ((setUp buffer tree settings).log events).sent := by
  induction events using List.reverseRecOn with
  | nil => exact fun x hx => absurd hx List.not_mem_nil
  | append_singleton events e ih =>
    have htracked := tracked_run buffer tree settings events
    rw [log_concat]
    generalize (setUp buffer tree settings).run events = s,
      (setUp buffer tree settings).log events = l at ih htracked ⊢
    cases e with
    | put batch =>
      intro x hx
      show x.1 ∈ l.stored ++ (l.sent ++ batch)
      rw [← List.append_assoc]
      exact List.mem_append_left _ (ih x hx)
    | mark f => exact ih
    | begin tick =>
      cases hloop : s.engine.mainLoop.isSome with
      | true => simpa [Log.enter, hloop] using ih
      | false => simp [Log.enter, hloop]
    | read m =>
      show ∀ x ∈ l.read ++ s.reading?.toList, x.1 ∈ l.stored ++ l.sent
      cases hread : s.reading? with
      | none =>
        rw [Option.toList_none, List.append_nil]
        exact ih
      | some y =>
        obtain ⟨a, error⟩ := y
        -- the reader has just read, so it stands where the log says
        obtain ⟨loop, sub, sub', hloop, free, hsub, hnext, rfl⟩ := reading?_eq_some.1 hread
        have hafter := htracked.readStream m
        rw [hread, readStream_eq hloop free hsub hnext] at hafter
        obtain ⟨before, -, hreader⟩ := hafter.feed
        exact fun x hx => (hreader _ rfl).mem_of_read hx
    | endRun => exact ih
    | engine step => exact ih

/-! ## The engine in a run -/

/-- What an event does to the engine, with the readings that are logged after it. -/
inductive Turn (s : Server) (l : Log) :
    Event → Engine → List (Alert × Option StreamError) → Prop where
  | idle (e : Event) : Turn s l e s.engine l.read
  | begun (tick : Nat) : Turn s l (.begin tick) (s.engine.begin tick) []
  | received (m : Moment) (a : Alert) (error : Option StreamError) (loop : MainLoop)
      (on : s.engine.mainLoop = some loop) (free : loop.sweep = none) :
      Turn s l (.read m) (s.engine.receive m a error) (l.read ++ [(a, error)])
  | ended (e : Event) : Turn s l e s.engine.endLoop l.read
  | stepped (step : Engine.Step) : Turn s l (.engine step) (s.engine.step step) l.read

/-- **What an event does to the engine**: one of the turns, the one that is logged. -/
theorem Tracked.turn {s : Server} {l : Log} (h : Tracked s l) (e : Event) :
    Turn s l e (s.react e).engine (l.enter s e).read := by
  cases e with
  | put batch => exact .idle _
  | mark f => exact .idle _
  | begin tick =>
    cases hloop : s.engine.mainLoop.isSome with
    | true =>
      simp only [Server.react, Log.enter, hloop, if_true]
      exact .idle _
    | false =>
      simp only [Server.react, Log.enter, hloop, Bool.false_eq_true, if_false]
      exact .begun tick
  | read m =>
    show Turn s l _ (s.readStream m).engine (l.read ++ s.reading?.toList)
    cases hread : s.reading? with
    | none =>
      rw [h.readStream_of_reading?_eq_none hread, Option.toList_none, List.append_nil]
      exact .idle _
    | some x =>
      obtain ⟨a, error⟩ := x
      obtain ⟨loop, sub, sub', hloop, free, hsub, hnext, rfl⟩ := reading?_eq_some.1 hread
      rw [readStream_eq hloop free hsub hnext]
      exact .received m a _ loop hloop free
  | endRun =>
    simp only [Server.react, Server.endRun, Log.enter]
    split
    · split
      · exact .ended _
      · exact .idle _
    · exact .idle _
  | engine step => exact .stepped step

section Runs

variable (buffer : Nat) (tree : Route) (settings : EngineSettings) (events : List Event)

theorem turn_run (e : Event) :
    Turn ((setUp buffer tree settings).run events) ((setUp buffer tree settings).log events) e
      ((setUp buffer tree settings).run (events ++ [e])).engine
      ((setUp buffer tree settings).log (events ++ [e])).read := by
  rw [run_concat, log_concat]
  exact (tracked_run buffer tree settings events).turn e

@[simp] theorem tree_run :
    ((setUp buffer tree settings).run events).engine.tree = tree := by
  induction events using List.reverseRecOn with
  | nil => rfl
  | append_singleton events e ih =>
    have hturn := turn_run buffer tree settings events e
    generalize ((setUp buffer tree settings).run (events ++ [e])).engine = engine,
      ((setUp buffer tree settings).log (events ++ [e])).read = read at hturn ⊢
    cases hturn with
    | idle | begun | ended => exact ih
    | received => rw [Engine.tree_receive, ih]
    | stepped => rw [Engine.tree_step, ih]

theorem keyed_run : ((setUp buffer tree settings).run events).engine.groups.Keyed := by
  induction events using List.reverseRecOn with
  | nil => exact fun id fp g hg => by cases hg
  | append_singleton events e ih =>
    have hturn := turn_run buffer tree settings events e
    generalize ((setUp buffer tree settings).run (events ++ [e])).engine = engine,
      ((setUp buffer tree settings).log (events ++ [e])).read = read at hturn ⊢
    cases hturn with
    | idle | ended => exact ih
    | begun => exact fun id fp g hg => by cases hg
    | received m a error => exact Engine.keyed_receive ih m a error
    | stepped step => exact Engine.keyed_step ih step

end Runs

end Server

end AlertFlow
