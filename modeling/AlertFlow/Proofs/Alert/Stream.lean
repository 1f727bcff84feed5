import AlertFlow.Proofs.Alert.Store

/-!
What the readers of a store get to read. A reader is owed the alerts that were stored when it
subscribed and then those put since. It is given them one by one, except that a live reading that
finds more alerts unread than the feed holds skips all but those. The error that a skip records
stands in one place until it is taken, so a reader that is overtaken twice in between learns of the
second time only.
-/
namespace AlertFlow

/-- What is done with a store and its readers, which are numbered as they subscribe. -/
inductive StreamEvent where
  | put (batch : List Alert)
  | subscribe
  | next (reader : Nat)
  | takeError (reader : Nat)

/-- The alerts that are put by some events. -/
def StreamEvent.puts : List StreamEvent → List Alert
  | [] => []
  | .put batch :: events => batch ++ puts events
  | _ :: events => puts events

/-- What a reader is answered. -/
inductive StreamAnswer where
  | reading (r : Reading)
  | error (e : Option StreamError)
deriving DecidableEq

/-- The alerts that a reader is given by some answers. -/
def StreamAnswer.alerts : List StreamAnswer → List Alert
  | [] => []
  | .reading (.alert a) :: answers => a :: alerts answers
  | _ :: answers => alerts answers

theorem StreamEvent.puts_cons (x : StreamEvent) (events : List StreamEvent) :
    puts (x :: events) = puts [x] ++ puts events := by
  cases x <;> simp [puts]

theorem StreamEvent.puts_append (events events' : List StreamEvent) :
    puts (events ++ events') = puts events ++ puts events' := by
  induction events with
  | nil => rfl
  | cons x events ih =>
    rw [List.cons_append, puts_cons, ih, puts_cons x events, List.append_assoc]

theorem StreamAnswer.alerts_append (answers answers' : List StreamAnswer) :
    alerts (answers ++ answers') = alerts answers ++ alerts answers' := by
  induction answers with
  | nil => rfl
  | cons answer answers ih => rcases answer with (_ | _ | _) | _ <;> simp [alerts, ih]

/-- A store and the subscriptions of its readers. -/
structure Readership where
  store : AlertStore
  readers : List Subscription := []

namespace Readership

def react (s : Readership) : StreamEvent → Readership
  | .put batch => { s with store := s.store.put batch }
  | .subscribe => { s with readers := s.readers ++ [s.store.subscribe] }
  | .next j => { s with readers := s.readers.modify j fun sub => (sub.next s.store.feed).2 }
  | .takeError j => { s with readers := s.readers.modify j fun sub => sub.takeError.2 }

/-- What a reader is answered to an event, if anything. -/
def answer? (s : Readership) (i : Nat) : StreamEvent → Option StreamAnswer
  | .next j =>
    if j = i then s.readers[i]?.map fun sub => .reading (sub.next s.store.feed).1 else none
  | .takeError j => if j = i then s.readers[i]?.map fun sub => .error sub.takeError.1 else none
  | _ => none

def run (s : Readership) : List StreamEvent → Readership
  | [] => s
  | x :: events => (s.react x).run events

/-- The answers that one reader gets, in order. -/
def answers (s : Readership) (i : Nat) : List StreamEvent → List StreamAnswer
  | [] => []
  | x :: events => (s.answer? i x).toList ++ (s.react x).answers i events

end Readership

/-- What a reader is owed: the stored alerts that are still to be replayed, the alerts put since
that it has not passed, and the size of the last gap unless it was reported. Beside it stands what
was skipped. -/
structure Account where
  replay : List Alert
  unread : List Alert := []
  missed : Option Nat := none
  skipped : List Alert := []

namespace Account

/-- A live reading that finds more than `capacity` alerts unread skips all but the last ones. -/
def skip (capacity : Nat) (acc : Account) : Account :=
  if capacity < acc.unread.length then
    let gap := acc.unread.length - capacity
    { acc with
      unread := acc.unread.drop gap
      missed := some gap
      skipped := acc.skipped ++ acc.unread.take gap }
  else acc

def next (capacity : Nat) (acc : Account) : Account × Option Alert :=
  match acc.replay with
  | a :: rest => ({ acc with replay := rest }, some a)
  | [] =>
    match (acc.skip capacity).unread with
    | a :: rest => ({ acc.skip capacity with unread := rest }, some a)
    | [] => (acc, none)

/-- What an event does to the account of the reader whose number is `i`. -/
def react (capacity i : Nat) (acc : Account) : StreamEvent → Account
  | .put batch => { acc with unread := acc.unread ++ batch }
  | .subscribe => acc
  | .next j => if j = i then (acc.next capacity).1 else acc
  | .takeError j => if j = i then { acc with missed := none } else acc

def answer? (capacity i : Nat) (acc : Account) : StreamEvent → Option StreamAnswer
  | .next j =>
    if j = i then some (.reading ((acc.next capacity).2.elim .pending .alert)) else none
  | .takeError j => if j = i then some (.error (acc.missed.map .lagged)) else none
  | _ => none

def run (capacity i : Nat) (acc : Account) : List StreamEvent → Account
  | [] => acc
  | x :: events => (acc.react capacity i x).run capacity i events

def answers (capacity i : Nat) (acc : Account) : List StreamEvent → List StreamAnswer
  | [] => []
  | x :: events =>
    (acc.answer? capacity i x).toList ++ (acc.react capacity i x).answers capacity i events

end Account

/-! ## One reader -/

/-- A subscription to a feed that carries some alerts stands where its account says. -/
structure Account.Matches (acc : Account) (sub : Subscription) (all : List Alert) : Prop where
  replay : sub.replay = acc.replay
  position : ∃ p, sub.position = some p ∧ p ≤ all.length ∧ acc.unread = all.drop p
  error : sub.error = acc.missed.map .lagged

namespace Account.Matches

variable {acc : Account} {sub : Subscription} {all : List Alert} {f : Feed}

theorem subscribe {s : AlertStore} (h : s.feed.Carries all) :
    Matches { replay := s.alerts.values } s.subscribe all := by
  refine ⟨rfl, ⟨all.length, ?_, Nat.le_refl _, ?_⟩, rfl⟩
  · rw [← h.sent_eq]
    rfl
  · rw [List.drop_length]

theorem put (h : acc.Matches sub all) (batch : List Alert) :
    Matches { acc with unread := acc.unread ++ batch } sub (all ++ batch) := by
  obtain ⟨p, hp, hle, hunread⟩ := h.position
  refine ⟨h.replay, ⟨p, hp, ?_, ?_⟩, h.error⟩
  · rw [List.length_append]
    exact Nat.le_add_right_of_le hle
  · rw [List.drop_append_of_le_length hle, ← hunread]

theorem takeError (h : acc.Matches sub all) :
    Matches { acc with missed := none } sub.takeError.2 all :=
  ⟨h.replay, h.position, rfl⟩

end Account.Matches

namespace Feed.Carries

variable {f : Feed} {all : List Alert} {p : Nat}

/-- A reader is overtaken when more alerts are unread than the feed holds, and by how many. -/
theorem unread_of_lt_dropped (h : f.Carries all) (hlt : p < f.dropped) :
    f.capacity < (all.drop p).length ∧ (all.drop p).length - f.capacity = f.dropped - p := by
  have hlen := congrArg List.length h.held
  have hfull := h.full (Nat.zero_lt_of_lt hlt)
  have hdropped := h.dropped_le
  rw [List.length_drop] at *
  omega

theorem unread_of_dropped_le (h : f.Carries all) (hle : f.dropped ≤ p) :
    (all.drop p).length ≤ f.capacity := by
  have hlen := congrArg List.length h.held
  have hbound := h.bound
  rw [List.length_drop] at *
  omega

end Feed.Carries

namespace Account.Matches

variable {acc : Account} {sub : Subscription} {all : List Alert} {f : Feed}

/-- A reading gives what the account says, and leaves both in step. -/
theorem next (hc : f.Carries all) (h : acc.Matches sub all) :
    (sub.next f).1 = (acc.next f.capacity).2.elim .pending .alert ∧
      (acc.next f.capacity).1.Matches (sub.next f).2 all := by
  obtain ⟨p, hp, hle, hunread⟩ := h.position
  cases hreplay : acc.replay with
  | cons a rest =>
    have hsub : sub.replay = a :: rest := h.replay.trans hreplay
    simp only [Account.next, Subscription.next, hreplay, hsub]
    exact ⟨rfl, rfl, ⟨p, hp, hle, hunread⟩, h.error⟩
  | nil =>
    have hsub : sub.replay = [] := h.replay.trans hreplay
    rcases Nat.lt_or_ge p f.dropped with hlt | hge
    · -- all but the alerts that the feed holds are skipped
      obtain ⟨hgap, hsize⟩ := hc.unread_of_lt_dropped hlt
      obtain ⟨a, ha, hnext⟩ := Subscription.next_of_lt_dropped hc hsub hp hlt
      obtain ⟨hin, rfl⟩ := List.getElem?_eq_some_iff.1 ha
      have hheld := List.drop_eq_getElem_cons hin
      have hskip : acc.skip f.capacity =
          { acc with
            unread := all[f.dropped] :: all.drop (f.dropped + 1)
            missed := some (f.dropped - p)
            skipped := acc.skipped ++ acc.unread.take (f.dropped - p) } := by
        rw [Account.skip, hunread, if_pos hgap, hsize]
        simp only [List.drop_drop, Nat.add_sub_cancel' (Nat.le_of_lt hlt), hheld]
      simp only [Account.next, hreplay, hskip, hnext]
      exact ⟨rfl, hsub, ⟨f.dropped + 1, rfl, hin, rfl⟩, rfl⟩
    · have hskip : acc.skip f.capacity = acc := by
        rw [Account.skip, hunread, if_neg (Nat.not_lt.2 (hc.unread_of_dropped_le hge))]
      have hnext := Subscription.next_of_dropped_le hc hsub hp hge
      cases ha : all[p]? with
      | some a =>
        obtain ⟨hin, rfl⟩ := List.getElem?_eq_some_iff.1 ha
        have hrest := hunread.trans (List.drop_eq_getElem_cons hin)
        simp only [ha] at hnext
        simp only [Account.next, hreplay, hskip, hrest, hnext]
        exact ⟨rfl, hsub, ⟨p + 1, rfl, hin, rfl⟩, h.error⟩
      | none =>
        have hrest : acc.unread = [] := by
          rw [hunread, List.drop_eq_nil_of_le (List.getElem?_eq_none_iff.1 ha)]
        simp only [ha] at hnext
        simp only [Account.next, hreplay, hskip, hrest, hnext]
        exact ⟨rfl, h⟩

end Account.Matches

namespace Readership

/-! ## All readers -/

theorem run_append (s : Readership) (events events' : List StreamEvent) :
    s.run (events ++ events') = (s.run events).run events' := by
  induction events generalizing s with
  | nil => rfl
  | cons x events ih => exact ih (s.react x)

/-- The store has what was put into it, whatever its readers do. -/
theorem store_run (s : Readership) (events : List StreamEvent) :
    (s.run events).store = s.store.put (StreamEvent.puts events) := by
  induction events generalizing s with
  | nil => rfl
  | cons x events ih =>
    rw [run, ih]
    cases x with
    | put batch => exact (s.store.put_append batch _).symm
    | subscribe => rfl
    | next j => rfl
    | takeError j => rfl

/-- One of the readers stands where its account says. -/
structure Serves (s : Readership) (i : Nat) (acc : Account) (all : List Alert) : Prop where
  carries : s.store.feed.Carries all
  reader : ∃ sub, s.readers[i]? = some sub ∧ acc.Matches sub all

namespace Serves

variable {s : Readership} {i : Nat} {acc : Account} {all : List Alert}

theorem subscribe (s : Readership) (h : s.store.feed.Carries all) :
    (s.react .subscribe).Serves s.readers.length { replay := s.store.alerts.values } all := by
  refine ⟨h, s.store.subscribe, ?_, .subscribe h⟩
  simp [react]

/-- One event, for a reader and its account. -/
theorem react (h : s.Serves i acc all) (x : StreamEvent) :
    s.answer? i x = acc.answer? s.store.feed.capacity i x ∧
      (s.react x).Serves i (acc.react s.store.feed.capacity i x) (all ++ StreamEvent.puts [x]) := by
  obtain ⟨sub, hsub, hmatches⟩ := h.reader
  cases x with
  | put batch =>
    simp only [StreamEvent.puts, List.append_nil]
    exact ⟨rfl, h.carries.put batch, sub, hsub, hmatches.put batch⟩
  | subscribe =>
    simp only [StreamEvent.puts, List.append_nil]
    refine ⟨rfl, h.carries, sub, ?_, hmatches⟩
    have hin := (List.getElem?_eq_some_iff.1 hsub).1
    rw [Readership.react, List.getElem?_append_left hin, hsub]
  | next j =>
    simp only [StreamEvent.puts, List.append_nil]
    obtain ⟨hanswer, hnext⟩ := hmatches.next h.carries
    by_cases hj : j = i
    · subst hj
      refine ⟨?_, h.carries, (sub.next s.store.feed).2, ?_, ?_⟩
      · simp [answer?, Account.answer?, hsub, hanswer]
      · simp [Readership.react, hsub]
      · simpa [Account.react] using hnext
    · refine ⟨?_, h.carries, sub, ?_, ?_⟩
      · simp [answer?, Account.answer?, hj]
      · simp [Readership.react, hsub, hj]
      · simpa [Account.react, hj] using hmatches
  | takeError j =>
    simp only [StreamEvent.puts, List.append_nil]
    by_cases hj : j = i
    · subst hj
      refine ⟨?_, h.carries, sub.takeError.2, ?_, ?_⟩
      · simp [answer?, Account.answer?, hsub, Subscription.takeError, hmatches.error]
      · simp [Readership.react, hsub]
      · simpa [Account.react] using hmatches.takeError
    · refine ⟨?_, h.carries, sub, ?_, ?_⟩
      · simp [answer?, Account.answer?, hj]
      · simp [Readership.react, hsub, hj]
      · simpa [Account.react, hj] using hmatches

end Serves

theorem capacity_react (s : Readership) (x : StreamEvent) :
    (s.react x).store.feed.capacity = s.store.feed.capacity := by
  cases x with
  | put batch => exact s.store.capacity_put batch
  | subscribe => rfl
  | next j => rfl
  | takeError j => rfl

/-- A reader is answered as its account says, event by event. -/
theorem Serves.run {s : Readership} {i : Nat} {acc : Account} {all : List Alert}
    (h : s.Serves i acc all) (events : List StreamEvent) :
    s.answers i events = acc.answers s.store.feed.capacity i events := by
  induction events generalizing s acc all with
  | nil => rfl
  | cons x events ih =>
    obtain ⟨hanswer, hreact⟩ := h.react x
    rw [answers, Account.answers, hanswer, ih hreact, capacity_react]

end Readership

namespace Account

/-! ## What a reader has been given -/

/-- What a reader was given, out of the alerts stored when it subscribed and those put since. -/
structure Gives (acc : Account) (stored sent given : List Alert) : Prop where
  split : ∃ done live passed, stored = done ++ acc.replay ∧ given = done ++ live ∧
    (acc.replay ≠ [] → passed = []) ∧ sent = passed ++ acc.unread ∧ live.Sublist passed ∧
    passed.Perm (live ++ acc.skipped)

namespace Gives

variable {acc : Account} {stored sent given : List Alert}

theorem start (stored : List Alert) : Gives { replay := stored } stored [] [] :=
  ⟨[], [], [], rfl, rfl, fun _ => rfl, rfl, .refl _, .refl _⟩

theorem put (h : acc.Gives stored sent given) (batch : List Alert) :
    Gives { acc with unread := acc.unread ++ batch } stored (sent ++ batch) given := by
  obtain ⟨done, live, passed, hstored, hgiven, hreplay, hsent, hsub, hperm⟩ := h
  refine ⟨done, live, passed, hstored, hgiven, hreplay, ?_, hsub, hperm⟩
  rw [hsent, List.append_assoc]

theorem takeError (h : acc.Gives stored sent given) :
    Gives { acc with missed := none } stored sent given :=
  ⟨h.split⟩

/-- Skipping moves unread alerts to those passed. -/
theorem skip (h : acc.Gives stored sent given) (hreplay : acc.replay = []) (capacity : Nat) :
    (acc.skip capacity).Gives stored sent given := by
  unfold Account.skip
  split
  · obtain ⟨done, live, passed, hstored, hgiven, -, hsent, hsub, hperm⟩ := h
    refine ⟨done, live, passed ++ acc.unread.take (acc.unread.length - capacity), hstored, hgiven,
      fun h => absurd hreplay h, ?_, hsub.trans (List.sublist_append_left _ _), ?_⟩
    · rw [hsent, List.append_assoc, List.take_append_drop]
    · rw [← List.append_assoc]
      exact hperm.append_right _
  · exact h

theorem next (h : acc.Gives stored sent given) (capacity : Nat) :
    (acc.next capacity).1.Gives stored sent (given ++ (acc.next capacity).2.toList) := by
  unfold Account.next
  split
  · next a rest hreplay =>
    obtain ⟨done, live, passed, hstored, hgiven, hpassed, hsent, hsub, hperm⟩ := h
    -- nothing live has been given as long as stored alerts are left
    obtain rfl := hpassed (by simp [hreplay])
    obtain rfl := List.sublist_nil.1 hsub
    refine ⟨done ++ [a], [], [], ?_, ?_, fun _ => rfl, hsent, hsub, hperm⟩
    · rw [hstored, hreplay, List.append_assoc]
      rfl
    · rw [hgiven]
      simp
  · next hreplay =>
    have hskip := h.skip hreplay capacity
    have hnone : (acc.skip capacity).replay = [] := by
      unfold Account.skip
      split <;> exact hreplay
    split
    · next a rest hunread =>
      obtain ⟨done, live, passed, hstored, hgiven, -, hsent, hsub, hperm⟩ := hskip
      refine ⟨done, live ++ [a], passed ++ [a], hstored, ?_, fun h => absurd hnone h, ?_,
        hsub.append (.refl _), ?_⟩
      · rw [hgiven, List.append_assoc]
        rfl
      · rw [hsent, hunread, List.append_assoc]
        rfl
      · refine (hperm.append_right [a]).trans ?_
        rw [List.append_assoc, List.append_assoc]
        exact List.perm_append_comm.append_left live
    · rw [Option.toList_none, List.append_nil]
      exact h

theorem react (h : acc.Gives stored sent given) (capacity i : Nat) (x : StreamEvent) :
    (acc.react capacity i x).Gives stored (sent ++ StreamEvent.puts [x])
      (given ++ StreamAnswer.alerts (acc.answer? capacity i x).toList) := by
  cases x with
  | put batch =>
    simpa [StreamEvent.puts, Account.react, answer?, StreamAnswer.alerts] using h.put batch
  | subscribe => simpa [StreamEvent.puts, Account.react, answer?, StreamAnswer.alerts] using h
  | next j =>
    have hnext := h.next capacity
    by_cases hj : j = i
    · cases ha : (acc.next capacity).2 <;>
        simpa [StreamEvent.puts, Account.react, answer?, StreamAnswer.alerts, hj, ha] using hnext
    · simpa [StreamEvent.puts, Account.react, answer?, StreamAnswer.alerts, hj] using h
  | takeError j =>
    by_cases hj : j = i
    · simpa [StreamEvent.puts, Account.react, answer?, StreamAnswer.alerts, hj] using h.takeError
    · simpa [StreamEvent.puts, Account.react, answer?, StreamAnswer.alerts, hj] using h

theorem run (h : acc.Gives stored sent given) (capacity i : Nat) (events : List StreamEvent) :
    (acc.run capacity i events).Gives stored (sent ++ StreamEvent.puts events)
      (given ++ StreamAnswer.alerts (acc.answers capacity i events)) := by
  induction events generalizing acc sent given with
  | nil => simpa [StreamEvent.puts, Account.run, Account.answers, StreamAnswer.alerts] using h
  | cons x events ih =>
    have := ih (h.react capacity i x)
    rw [List.append_assoc, ← StreamEvent.puts_cons, List.append_assoc, ← StreamAnswer.alerts_append]
      at this
    exact this

/-- A reader that skipped nothing and has nothing left to read was given all that it was owed. -/
theorem eq_of_settled (h : acc.Gives stored sent given) (hreplay : acc.replay = [])
    (hunread : acc.unread = []) (hskipped : acc.skipped = []) : given = stored ++ sent := by
  obtain ⟨done, live, passed, rfl, rfl, -, rfl, hsub, hperm⟩ := h
  rw [hskipped, List.append_nil] at hperm
  rw [hreplay, hunread, List.append_nil, List.append_nil, hsub.eq_of_length hperm.length_eq.symm]

end Gives

end Account

namespace Readership

/-- A store without alerts and readers, whose readers may fall behind by so many alerts. -/
def ofCapacity (n : Nat) : Readership := { store := .ofCapacity n }

theorem carries_run (n : Nat) (events : List StreamEvent) :
    ((ofCapacity n).run events).store.feed.Carries (StreamEvent.puts events) := by
  have hstart : (AlertStore.ofCapacity n).feed.Carries [] := .ofCapacity n
  rw [store_run]
  exact hstart.put (StreamEvent.puts events)

theorem stocks_run (n : Nat) (events : List StreamEvent) :
    ((ofCapacity n).run events).store.Stocks (StreamEvent.puts events) := by
  rw [store_run]
  exact (AlertStore.Stocks.ofCapacity n).put (StreamEvent.puts events)

theorem capacity_run (n : Nat) (events : List StreamEvent) :
    ((ofCapacity n).run events).store.feed.capacity = (max n 1).nextPowerOfTwo := by
  rw [store_run, AlertStore.capacity_put]
  rfl

/-- A reader that is new after an event is one that subscribed to the store as it was. -/
theorem eq_subscribe_of_react {s : Readership} {x : StreamEvent} {i : Nat}
    (hi : i < (s.react x).readers.length) (hnew : s.readers.length ≤ i) :
    x = .subscribe ∧ i = s.readers.length := by
  cases x with
  | put batch => exact absurd hi (Nat.not_lt.2 hnew)
  | subscribe =>
    rw [react, List.length_append, List.length_singleton] at hi
    exact ⟨rfl, Nat.le_antisymm (Nat.le_of_lt_succ hi) hnew⟩
  | next j =>
    rw [react, List.length_modify] at hi
    exact absurd hi (Nat.not_lt.2 hnew)
  | takeError j =>
    rw [react, List.length_modify] at hi
    exact absurd hi (Nat.not_lt.2 hnew)

/-- If every reader has an account, every reader has one after an event. -/
theorem serves_react {s : Readership} {all : List Alert} (hc : s.store.feed.Carries all)
    (h : ∀ i < s.readers.length, ∃ acc, s.Serves i acc all) (x : StreamEvent) :
    ∀ i < (s.react x).readers.length, ∃ acc,
      (s.react x).Serves i acc (all ++ StreamEvent.puts [x]) := by
  intro i hi
  rcases Nat.lt_or_ge i s.readers.length with hold | hnew
  · obtain ⟨acc, hserves⟩ := h i hold
    exact ⟨_, (hserves.react x).2⟩
  · obtain ⟨rfl, rfl⟩ := eq_subscribe_of_react hi hnew
    show ∃ acc, (s.react .subscribe).Serves s.readers.length acc (all ++ [])
    rw [List.append_nil]
    exact ⟨_, .subscribe s hc⟩

/-- Every reader has an account. -/
theorem serves_run (n : Nat) (events : List StreamEvent) :
    ∀ i < ((ofCapacity n).run events).readers.length, ∃ acc,
      ((ofCapacity n).run events).Serves i acc (StreamEvent.puts events) := by
  induction events using List.reverseRecOn with
  | nil => exact fun i hi => absurd hi (Nat.not_lt_zero i)
  | append_singleton events x ih =>
    rw [run_append, StreamEvent.puts_append]
    exact serves_react (carries_run n events) ih x

/-- A batch comes behind what each reader has not read. -/
theorem serves_put (n : Nat) (events : List StreamEvent) (batch : List Alert) :
    let s := (ofCapacity n).run events
    ∀ i < s.readers.length, ∃ account,
      s.Serves i account (StreamEvent.puts events) ∧
        (s.react (.put batch)).Serves i { account with unread := account.unread ++ batch }
          (StreamEvent.puts events ++ batch) ∧
        ∀ later, (s.react (.put batch)).answers i later =
          ({ account with unread := account.unread ++ batch } : Account).answers
            (max n 1).nextPowerOfTwo i later := by
  intro s i hi
  obtain ⟨account, hserves⟩ := serves_run n events i hi
  have hafter := (hserves.react (.put batch)).2
  simp only [StreamEvent.puts, List.append_nil] at hafter
  refine ⟨account, hserves, hafter, fun later => ?_⟩
  have hanswers := hafter.run later
  rw [capacity_react, capacity_run] at hanswers
  exact hanswers

/-- **What a reader reads.** A reader subscribes at any moment to a store of any capacity, among any
other readers. Each alert stored at that moment is replayed to it once, under its own fingerprint.
From then on it is answered as its account says, event by event. What it has been given is a part of
the stored alerts from the front and, once that is all of them, alerts put since, in order; with
what was skipped and what is unread these make up all that were put since. If nothing was skipped
and nothing is left, the last alerts it was given are those in the store. -/
theorem reads_as_accounted (n : Nat) (before after : List StreamEvent) :
    let opened := (ofCapacity n).run before
    let stored := opened.store.alerts.values
    let i := opened.readers.length
    let s := opened.react .subscribe
    let capacity := (max n 1).nextPowerOfTwo
    let account := ({ replay := stored } : Account).run capacity i after
    let given := StreamAnswer.alerts (s.answers i after)
    (stored.map Alert.fingerprint).Nodup ∧
      (∀ fp a, opened.store.alerts.get? fp = some a ↔ a ∈ stored ∧ a.fingerprint = fp) ∧
      s.answers i after = ({ replay := stored } : Account).answers capacity i after ∧
      (∃ done live, stored = done ++ account.replay ∧ given = done ++ live ∧
        (account.replay ≠ [] → live = [] ∧ account.skipped = []) ∧
        live.Sublist (StreamEvent.puts after) ∧
        (StreamEvent.puts after).Perm (live ++ account.skipped ++ account.unread)) ∧
      (account.replay = [] → account.unread = [] → account.skipped = [] →
        given = stored ++ StreamEvent.puts after ∧
          ∀ fp, Alert.latest? given fp = (s.run after).store.alerts.get? fp) := by
  intro opened stored i s capacity account given
  have hstocks : opened.store.Stocks (StreamEvent.puts before) := stocks_run n before
  have hserves := Serves.subscribe opened (carries_run n before)
  have hcapacity : s.store.feed.capacity = capacity := capacity_run n before
  have hanswers : s.answers i after =
      ({ replay := stored } : Account).answers capacity i after := by
    rw [← hcapacity]
    exact hserves.run after
  have hgives := (Account.Gives.start stored).run capacity i after
  rw [List.nil_append, List.nil_append, ← hanswers] at hgives
  refine ⟨hstocks.nodup_values, ?_, hanswers, ?_, ?_⟩
  · intro fp a
    constructor
    · intro hget
      obtain rfl : a.fingerprint = fp := (Alert.latest?_eq_some (hstocks fp ▸ hget)).2
      exact ⟨hstocks.mem_values.2 hget, rfl⟩
    · rintro ⟨hmem, rfl⟩
      exact hstocks.mem_values.1 hmem
  · obtain ⟨done, live, passed, hstored, hgiven, hreplay, hsent, hsub, hperm⟩ := hgives
    refine ⟨done, live, hstored, hgiven, ?_, ?_, ?_⟩
    · intro hleft
      rw [hreplay hleft] at hsub hperm
      exact List.append_eq_nil_iff.1 (List.nil_perm.1 hperm)
    · rw [hsent]
      exact hsub.trans (List.sublist_append_left _ _)
    · rw [hsent]
      exact hperm.append_right _
  · intro hreplay hunread hskipped
    have heq := hgives.eq_of_settled hreplay hunread hskipped
    refine ⟨heq, fun fp => ?_⟩
    have hlast := (hstocks.values).put (StreamEvent.puts after)
    show Alert.latest? given fp = _
    rw [store_run, show given = stored ++ StreamEvent.puts after from heq]
    exact (hlast fp).symm

/-- An alert that started some seconds after the epoch. -/
def alertOf (secs : Int) : Alert where
  labels := .ofList [("alertname", "A")]
  startsAt := ⟨secs, 0⟩

/-- A gap that is followed by another one before the error is taken is not reported: the reader of a
feed that holds one alert skips two alerts, and then one, and learns of the one. -/
theorem gap_hidden_by_later_gap :
    ¬ ∀ (n : Nat) (before since later : List StreamEvent) (gap : Nat),
      let opened := (ofCapacity n).run before
      let i := opened.readers.length
      let account : Account := { replay := opened.store.alerts.values }
      (account.run (max n 1).nextPowerOfTwo i since).missed = some gap →
      (∀ x ∈ later, x ≠ .takeError i) →
      ((opened.react .subscribe).run (since ++ later)).answer? i (.takeError i) =
        some (.error (some (.lagged gap))) := by
  intro h
  have hreport := h 1 [] [.put [alertOf 1, alertOf 2, alertOf 3], .next 0]
    [.put [alertOf 4, alertOf 5], .next 0] 2 (by decide +kernel) (by simp [ofCapacity, run])
  revert hreport
  decide +kernel

end Readership

end AlertFlow
