import AlertFlow.Proofs.Group.Holdings
import AlertFlow.Proofs.Group.Step
import Mathlib.Data.List.Induction
import Mathlib.Data.List.Nodup

/-!
The account a group keeps of its alerts while deliveries overlap with insertions and with each
other. The group holds the version inserted last, until a flush that took its snapshot after that
insertion is delivered and the alert was resolved when that flush was fired.
-/
namespace AlertFlow.Group

/-- Whether a flush noted in a history took its snapshot, was delivered, and was fired when the
alert was resolved. -/
def Cleared (a : Alert) (h : List Note) : Prop :=
  ∃ n now, .taken n now ∈ h ∧ .delivered n ∈ h ∧ a.isResolvedAt now = true

/-- Whether a note of a history is of a flush that clears an alert. -/
def clears (a : Alert) (h : List Note) : Note → Bool
  | .taken n now => h.contains (.delivered n) && a.isResolvedAt now
  | _ => false

instance (a : Alert) (h : List Note) : Decidable (Cleared a h) :=
  decidable_of_iff (h.any (clears a h) = true) <| by
    rw [List.any_eq_true]
    constructor
    · intro hany
      rcases hany with ⟨_ | ⟨n, now⟩ | _, hx, hc⟩
      · cases hc
      · exact ⟨n, now, hx, by simpa [clears] using hc⟩
      · cases hc
    · intro hcleared
      obtain ⟨n, now, ht, hc⟩ := hcleared
      exact ⟨_, ht, by simpa [clears] using hc⟩

/-- The alert that a group holds under a fingerprint. -/
def held? (g : Group) (fp : Fingerprint) : Option Alert :=
  (g.holdings.held.get? fp).map (·.alert)

/-! ## What every run keeps -/

@[simp] theorem number_take (f : Flush) (n : Nat) (s : Snapshot) :
    (f.take n s).number = f.number := by
  unfold Flush.take
  split <;> rfl

@[simp] theorem context_take (f : Flush) (n : Nat) (s : Snapshot) :
    (f.take n s).context = f.context := by
  unfold Flush.take
  split <;> rfl

theorem snapshot_take (f : Flush) (n : Nat) (s : Snapshot) :
    (f.take n s).snapshot = if f.number = n then some s else f.snapshot := by
  unfold Flush.take
  split <;> rfl

/-- Where a flush that is under way after an event comes from: it was under way before, and may have
taken its snapshot, or it has been opened. -/
inductive FlushOrigin (e : Event) (g g' : Group) (x : Option Note) (f : Flush) : Prop where
  | kept (f₀ : Flush) (mem : f₀ ∈ g.flushes) (number : f.number = f₀.number)
      (context : f.context = f₀.context) (snapshot : f.snapshot = f₀.snapshot)
  | taken (f₀ : Flush) (mem : f₀ ∈ g.flushes) (number : f.number = f₀.number)
      (context : f.context = f₀.context) (snapshot : f.snapshot = some g.holdings.snapshot)
      (now : Instant) (noted : x = some (.taken f.number now))
  | opened (number : f.number = g.nextFlush) (snapshot : f.snapshot = none)
      (fired : e.wall? = some f.context.now) (next : g'.nextFlush = g.nextFlush + 1)

theorem Change.flushOrigin {e : Event} {g g' : Group} {x : Option Note} (hc : Change e g g' x)
    {f : Flush} (hf : f ∈ g'.flushes) : FlushOrigin e g g' x f := by
  cases hc with
  | kept _ flushes | inserted _ _ flushes => exact .kept f (flushes ▸ hf) rfl rfl rfl
  | opened f' number waiting fired _ flushes next =>
    rw [flushes] at hf
    rcases List.mem_append.1 hf with hf | hf
    · exact .kept f hf rfl rfl rfl
    · obtain rfl := List.mem_singleton.1 hf
      exact .opened number waiting fired next
  | taken f' _ _ _ flushes =>
    rw [flushes] at hf
    obtain ⟨f₀, hf₀, rfl⟩ := List.mem_map.1 hf
    by_cases hn : f₀.number = f'.number
    · refine .taken f₀ hf₀ (number_take _ _ _) (context_take _ _ _) ?_ f'.context.now ?_
      · rw [snapshot_take, if_pos hn]
      · rw [number_take, hn]
    · refine .kept f₀ hf₀ (number_take _ _ _) (context_take _ _ _) ?_
      rw [snapshot_take, if_neg hn]
  | delivered _ _ _ _ _ flushes | dropped _ _ flushes =>
    rw [flushes] at hf
    exact .kept f (List.mem_of_mem_filter hf) rfl rfl rfl

/-- What a group holds and the flushes it has under way agree with what was noted. -/
structure Ledger (b : Holdings) (fs : List Flush) (next : Nat) (h : List Note) : Prop where
  numbers : (fs.map (·.number)).Nodup
  bound : ∀ f ∈ fs, f.number < next
  takenBound : ∀ n now, .taken n now ∈ h → n < next
  taken : ∀ f ∈ fs, ∀ now,
    .taken f.number now ∈ h ↔ f.snapshot.isSome = true ∧ now = f.context.now
  delivered : ∀ n, .delivered n ∈ h → ∃ now, .taken n now ∈ h
  sent : b.hasSent = true ↔ ∃ n, .delivered n ∈ h
  held : ∀ fp e, b.held.get? fp = some e →
    e.revision < b.nextRevision ∧ e.alert.fingerprint = fp ∧ .inserted e.alert ∈ h
  snapshots : ∀ f ∈ fs, ∀ s, f.snapshot = some s → ∀ p ∈ s, p.2.revision < b.nextRevision

namespace Ledger

variable {b : Holdings} {fs : List Flush} {next : Nat} {h : List Note}

theorem start : Ledger {} [] 0 [] where
  numbers := List.nodup_nil
  bound := by simp
  takenBound := by simp
  taken := by simp
  delivered := by simp
  sent := by simp
  held := by simp
  snapshots := by simp

theorem eq_of_number (hl : Ledger b fs next h) {f f' : Flush} (hf : f ∈ fs) (hf' : f' ∈ fs)
    (hn : f.number = f'.number) : f = f' :=
  List.inj_on_of_nodup_map hl.numbers hf hf' hn

theorem insert (hl : Ledger b fs next h) (a : Alert) :
    Ledger (b.insert a) fs next (h ++ [.inserted a]) where
  numbers := hl.numbers
  bound := hl.bound
  takenBound := by simpa using hl.takenBound
  taken := by simpa using hl.taken
  delivered := by simpa using hl.delivered
  sent := by simpa using hl.sent
  held := by
    intro fp e he
    rw [Holdings.get?_insert] at he
    split at he
    · next hfp =>
      cases he
      exact ⟨Nat.lt_succ_self _, hfp, by simp⟩
    · obtain ⟨hr, hfp, hm⟩ := hl.held fp e he
      exact ⟨Nat.lt_succ_of_lt hr, hfp, List.mem_append_left _ hm⟩
  snapshots := by
    intro f hf s hs p hp
    exact Nat.lt_succ_of_lt (hl.snapshots f hf s hs p hp)

theorem openFlush (hl : Ledger b fs next h) {f : Flush} (number : f.number = next)
    (waiting : f.snapshot = none) : Ledger b (fs ++ [f]) (next + 1) h where
  numbers := by
    rw [List.map_append, List.nodup_append]
    refine ⟨hl.numbers, List.nodup_singleton _, ?_⟩
    intro n hn n' hn' heq
    obtain ⟨f', hf', rfl⟩ := List.mem_map.1 hn
    have hlt := hl.bound f' hf'
    rw [List.map_singleton, List.mem_singleton, number] at hn'
    omega
  bound := by
    intro f' hf'
    rcases List.mem_append.1 hf' with hf' | hf'
    · exact Nat.lt_succ_of_lt (hl.bound f' hf')
    · rw [List.mem_singleton.1 hf', number]
      exact Nat.lt_succ_self next
  takenBound := fun n now hm => Nat.lt_succ_of_lt (hl.takenBound n now hm)
  taken := by
    intro f' hf' now
    rcases List.mem_append.1 hf' with hf' | hf'
    · exact hl.taken f' hf' now
    · rw [List.mem_singleton.1 hf', waiting, number]
      refine iff_of_false (fun hm => ?_) (by simp)
      exact Nat.lt_irrefl next (hl.takenBound next now hm)
  delivered := hl.delivered
  sent := hl.sent
  held := hl.held
  snapshots := by
    intro f' hf' s hs
    rcases List.mem_append.1 hf' with hf' | hf'
    · exact hl.snapshots f' hf' s hs
    · rw [List.mem_singleton.1 hf', waiting] at hs
      cases hs

theorem take (hl : Ledger b fs next h) {f : Flush} (mem : f ∈ fs) (waiting : f.snapshot = none) :
    Ledger b (fs.map (·.take f.number b.snapshot)) next
      (h ++ [.taken f.number f.context.now]) where
  numbers := by simpa [Function.comp_def] using hl.numbers
  bound := by simpa using hl.bound
  takenBound := by
    intro n now hm
    rcases List.mem_append.1 hm with hm | hm
    · exact hl.takenBound n now hm
    · cases List.mem_singleton.1 hm
      exact hl.bound f mem
  taken := by
    intro f' hf' now
    obtain ⟨f₀, hf₀, rfl⟩ := List.mem_map.1 hf'
    rw [number_take, context_take, snapshot_take, List.mem_append, List.mem_singleton]
    by_cases hn : f₀.number = f.number
    · -- the flush itself, of which nothing was noted while it waited
      cases hl.eq_of_number hf₀ mem hn
      have hnone : ¬ Note.taken f.number now ∈ h := by simp [hl.taken f mem, waiting]
      simp [hnone]
    · simp [hn, hl.taken f₀ hf₀]
  delivered := by
    intro n hm
    obtain ⟨now, hm⟩ := hl.delivered n (by simpa using hm)
    exact ⟨now, List.mem_append_left _ hm⟩
  sent := by simpa using hl.sent
  held := fun fp e he => (hl.held fp e he).imp id (And.imp id (List.mem_append_left _))
  snapshots := by
    intro f' hf' s hs p hp
    obtain ⟨f₀, hf₀, rfl⟩ := List.mem_map.1 hf'
    rw [snapshot_take] at hs
    split at hs
    · cases hs
      exact (hl.held p.1 p.2 (Holdings.mem_snapshot.1 hp)).1
    · exact hl.snapshots f₀ hf₀ s hs p hp

theorem drop (hl : Ledger b fs next h) (n : Nat) :
    Ledger b (fs.filter (·.number ≠ n)) next h where
  numbers := hl.numbers.sublist (List.filter_sublist.map _)
  bound := fun f hf => hl.bound f (List.mem_of_mem_filter hf)
  takenBound := hl.takenBound
  taken := fun f hf => hl.taken f (List.mem_of_mem_filter hf)
  delivered := hl.delivered
  sent := hl.sent
  held := hl.held
  snapshots := fun f hf => hl.snapshots f (List.mem_of_mem_filter hf)

theorem settle (hl : Ledger b fs next h) {f : Flush} {s : Snapshot} (mem : f ∈ fs)
    (snapshot : f.snapshot = some s) :
    Ledger (b.settle s f.context.now) fs next (h ++ [.delivered f.number]) where
  numbers := hl.numbers
  bound := hl.bound
  takenBound := by simpa using hl.takenBound
  taken := by simpa using hl.taken
  delivered := by
    intro n hm
    rcases List.mem_append.1 hm with hm | hm
    · obtain ⟨now, hm⟩ := hl.delivered n hm
      exact ⟨now, List.mem_append_left _ hm⟩
    · cases List.mem_singleton.1 hm
      have htaken := (hl.taken f mem f.context.now).2 ⟨by rw [snapshot]; rfl, rfl⟩
      exact ⟨f.context.now, List.mem_append_left _ htaken⟩
  sent := by
    rw [Holdings.hasSent_settle]
    exact iff_of_true rfl ⟨f.number, by simp⟩
  held := by
    intro fp e he
    obtain ⟨hr, hfp, hm⟩ := hl.held fp e (Holdings.get?_of_settle he)
    exact ⟨hr, hfp, List.mem_append_left _ hm⟩
  snapshots := hl.snapshots

/-- **What every run keeps**, event by event. -/
theorem change {e : Event} {g g' : Group} {x : Option Note}
    (hl : Ledger g.holdings g.flushes g.nextFlush h) (hc : Change e g g' x) :
    Ledger g'.holdings g'.flushes g'.nextFlush (h ++ x.toList) := by
  cases hc with
  | kept holdings flushes next =>
    rw [holdings, flushes, next]
    simpa using hl
  | inserted a holdings flushes next =>
    rw [holdings, flushes, next]
    exact hl.insert a
  | opened f number waiting fired holdings flushes next =>
    rw [holdings, flushes, next]
    simpa using hl.openFlush number waiting
  | taken f mem waiting holdings flushes next =>
    rw [holdings, flushes, next]
    exact hl.take mem waiting
  | delivered f s mem snapshot holdings flushes next =>
    rw [holdings, flushes, next]
    exact (hl.settle mem snapshot).drop f.number
  | dropped n holdings flushes next =>
    rw [holdings, flushes, next]
    simpa using hl.drop n

end Ledger

/-! ## What becomes of an insertion -/

theorem Cleared.append {a : Alert} {h : List Note} (hc : Cleared a h) (x : Note) :
    Cleared a (h ++ [x]) := by
  obtain ⟨n, now, ht, hd, hr⟩ := hc
  exact ⟨n, now, List.mem_append_left _ ht, List.mem_append_left _ hd, hr⟩

theorem cleared_inserted {a c : Alert} {h : List Note} :
    Cleared a (h ++ [.inserted c]) ↔ Cleared a h := by
  simp [Cleared]

theorem cleared_taken {a : Alert} {h : List Note} {n : Nat} {now : Instant}
    (hn : .delivered n ∉ h) : Cleared a (h ++ [.taken n now]) ↔ Cleared a h := by
  refine ⟨?_, fun hc => hc.append _⟩
  intro hc
  obtain ⟨n', now', ht, hd, hr⟩ := hc
  have hd : .delivered n' ∈ h := by simpa using hd
  rcases List.mem_append.1 ht with ht | ht
  · exact ⟨n', now', ht, hd, hr⟩
  · cases List.mem_singleton.1 ht
    exact absurd hd hn

theorem cleared_delivered {a : Alert} {h : List Note} {n : Nat} :
    Cleared a (h ++ [.delivered n]) ↔
      Cleared a h ∨ ∃ now, .taken n now ∈ h ∧ a.isResolvedAt now = true := by
  constructor
  · intro hc
    obtain ⟨n', now', ht, hd, hr⟩ := hc
    have ht : .taken n' now' ∈ h := by simpa using ht
    rcases List.mem_append.1 hd with hd | hd
    · exact .inl ⟨n', now', ht, hd, hr⟩
    · cases List.mem_singleton.1 hd
      exact .inr ⟨now', ht, hr⟩
  · intro hor
    rcases hor with hc | ⟨now, ht, hr⟩
    · exact hc.append _
    · exact ⟨n, now, List.mem_append_left _ ht, by simp, hr⟩

/-- The alert inserted with a revision, and what was noted after it: it is held unless cleared, a
snapshot taken since has it as long as it is held, and an earlier one has older versions only. -/
structure Traced (a : Alert) (rev : Nat) (b : Holdings) (fs : List Flush) (after : List Note) :
    Prop where
  fresh : rev < b.nextRevision
  held : b.held.get? a.fingerprint = if Cleared a after then none else some ⟨rev, a⟩
  own : ∀ f ∈ fs, ∀ s, f.snapshot = some s → ∀ e, (a.fingerprint, e) ∈ s →
    e.revision = rev → e.alert = a
  later : ∀ f ∈ fs, ∀ s, f.snapshot = some s → (∃ now, .taken f.number now ∈ after) →
    ¬ Cleared a after → (a.fingerprint, ⟨rev, a⟩) ∈ s
  earlier : ∀ f ∈ fs, ∀ s, f.snapshot = some s → (∀ now, .taken f.number now ∉ after) →
    ∀ e, (a.fingerprint, e) ∈ s → e.revision < rev

namespace Traced

variable {a : Alert} {rev next : Nat} {b : Holdings} {fs : List Flush} {h after : List Note}

theorem start (hl : Ledger b fs next h) (a : Alert) :
    Traced a b.nextRevision (b.insert a) fs [] where
  fresh := Nat.lt_succ_self _
  held := by simp [Holdings.get?_insert, Cleared]
  own := by
    intro f hf s hs e he hr
    exact absurd hr (Nat.ne_of_lt (hl.snapshots f hf s hs _ he))
  later := by simp
  earlier := by
    intro f hf s hs _ e he
    exact hl.snapshots f hf s hs _ he

theorem insert (ht : Traced a rev b fs after) {c : Alert} (hc : c.fingerprint ≠ a.fingerprint) :
    Traced a rev (b.insert c) fs (after ++ [.inserted c]) where
  fresh := Nat.lt_succ_of_lt ht.fresh
  held := by
    rw [Holdings.get?_insert, if_neg hc, ht.held]
    simp only [cleared_inserted]
  own := ht.own
  later := by simpa [cleared_inserted] using ht.later
  earlier := by simpa using ht.earlier

theorem openFlush (ht : Traced a rev b fs after) {f : Flush} (waiting : f.snapshot = none) :
    Traced a rev b (fs ++ [f]) after := by
  have old : ∀ f' ∈ fs ++ [f], ∀ s, f'.snapshot = some s → f' ∈ fs := by
    intro f' hf' s hs
    rcases List.mem_append.1 hf' with hf' | hf'
    · exact hf'
    · rw [List.mem_singleton.1 hf', waiting] at hs
      cases hs
  exact ⟨ht.fresh, ht.held, fun f' hf' s hs => ht.own f' (old f' hf' s hs) s hs,
    fun f' hf' s hs => ht.later f' (old f' hf' s hs) s hs,
    fun f' hf' s hs => ht.earlier f' (old f' hf' s hs) s hs⟩

theorem take (hl : Ledger b fs next h) (hsub : after ⊆ h) (ht : Traced a rev b fs after)
    {f : Flush} (mem : f ∈ fs) (waiting : f.snapshot = none) :
    Traced a rev b (fs.map (·.take f.number b.snapshot))
      (after ++ [.taken f.number f.context.now]) := by
  have untaken : ∀ now, .taken f.number now ∉ h := by simp [hl.taken f mem, waiting]
  -- no delivery is noted before its snapshot, so this one clears nothing yet
  have hcleared : Cleared a (after ++ [.taken f.number f.context.now]) ↔ Cleared a after := by
    refine cleared_taken fun hd => ?_
    obtain ⟨now, hm⟩ := hl.delivered _ (hsub hd)
    exact untaken now hm
  have others : ∀ f₀ ∈ fs, f₀.number ≠ f.number → ∀ now,
      .taken f₀.number now ∈ after ++ [.taken f.number f.context.now] ↔
        .taken f₀.number now ∈ after := by
    intro f₀ _ hn now
    simp [hn]
  have inSnapshot : ∀ e, (a.fingerprint, e) ∈ b.snapshot → ¬ Cleared a after ∧ e = ⟨rev, a⟩ := by
    intro e he
    rw [Holdings.mem_snapshot, ht.held] at he
    split at he
    · cases he
    · next hn => exact ⟨hn, (Option.some.inj he).symm⟩
  refine ⟨ht.fresh, by simp only [ht.held, hcleared], ?_, ?_, ?_⟩
  · intro f' hf' s hs e he hr
    obtain ⟨f₀, hf₀, rfl⟩ := List.mem_map.1 hf'
    rw [snapshot_take] at hs
    split at hs
    · cases hs
      rw [(inSnapshot e he).2]
    · exact ht.own f₀ hf₀ s hs e he hr
  · intro f' hf' s hs htaken hn
    obtain ⟨f₀, hf₀, rfl⟩ := List.mem_map.1 hf'
    rw [number_take] at htaken
    rw [hcleared] at hn
    rw [snapshot_take] at hs
    split at hs
    · cases hs
      rw [Holdings.mem_snapshot, ht.held, if_neg hn]
    · next hne =>
      simp only [others f₀ hf₀ hne] at htaken
      exact ht.later f₀ hf₀ s hs htaken hn
  · intro f' hf' s hs hnone e he
    obtain ⟨f₀, hf₀, rfl⟩ := List.mem_map.1 hf'
    rw [number_take] at hnone
    rw [snapshot_take] at hs
    split at hs
    · next heq => exact absurd (by simp [heq]) (hnone f.context.now)
    · next hne =>
      simp only [others f₀ hf₀ hne] at hnone
      exact ht.earlier f₀ hf₀ s hs hnone e he

theorem drop (ht : Traced a rev b fs after) (n : Nat) :
    Traced a rev b (fs.filter (·.number ≠ n)) after where
  fresh := ht.fresh
  held := ht.held
  own := fun f hf => ht.own f (List.mem_of_mem_filter hf)
  later := fun f hf => ht.later f (List.mem_of_mem_filter hf)
  earlier := fun f hf => ht.earlier f (List.mem_of_mem_filter hf)

/-- A delivery releases the alert if its snapshot was taken since and the alert was resolved. -/
theorem releases_iff (hl : Ledger b fs next h) (hsub : after ⊆ h) (ht : Traced a rev b fs after)
    {f : Flush} {s : Snapshot} (mem : f ∈ fs) (snapshot : f.snapshot = some s)
    (hn : ¬ Cleared a after) :
    (∃ e ∈ s, Holdings.Releases f.context.now a.fingerprint ⟨rev, a⟩ e) ↔
      ∃ now, .taken f.number now ∈ after ∧ a.isResolvedAt now = true := by
  constructor
  · intro hrel
    obtain ⟨⟨_, e⟩, he, rfl, hr, hres⟩ := hrel
    by_cases htaken : ∃ now, .taken f.number now ∈ after
    · obtain ⟨now, hm⟩ := htaken
      obtain ⟨-, rfl⟩ := (hl.taken f mem now).1 (hsub hm)
      exact ⟨_, hm, ht.own f mem s snapshot e he hr.symm ▸ hres⟩
    · -- a snapshot from before the insertion shows an older revision
      have := ht.earlier f mem s snapshot (not_exists.1 htaken) e he
      exact absurd hr (Nat.ne_of_gt this)
  · intro hcleared
    obtain ⟨now, hm, hres⟩ := hcleared
    obtain ⟨-, rfl⟩ := (hl.taken f mem now).1 (hsub hm)
    exact ⟨_, ht.later f mem s snapshot ⟨_, hm⟩ hn, rfl, rfl, hres⟩

theorem settle (hl : Ledger b fs next h) (hsub : after ⊆ h) (ht : Traced a rev b fs after)
    {f : Flush} {s : Snapshot} (mem : f ∈ fs) (snapshot : f.snapshot = some s) :
    Traced a rev (b.settle s f.context.now) fs (after ++ [.delivered f.number]) where
  fresh := ht.fresh
  held := by
    rw [Holdings.get?_settle, ht.held]
    by_cases hn : Cleared a after
    · -- what is cleared already no delivery brings back
      rw [if_pos hn, if_pos (hn.append _)]
      rfl
    · rw [if_neg hn, Option.filter_some]
      have := releases_iff hl hsub ht mem snapshot hn
      by_cases hc : ∃ now, .taken f.number now ∈ after ∧ a.isResolvedAt now = true
      · obtain ⟨e, he, hr⟩ := this.2 hc
        rw [if_pos (cleared_delivered.2 (.inr hc)), if_neg]
        simpa using ⟨e.1, e.2, he, hr⟩
      · rw [if_neg fun h => (cleared_delivered.1 h).elim hn hc, if_pos]
        simpa using fun k e he hr => hc (this.1 ⟨(k, e), he, hr⟩)
  own := ht.own
  later := by
    intro f' hf' s' hs' htaken hn
    refine ht.later f' hf' s' hs' (by simpa using htaken) fun hc => hn (hc.append _)
  earlier := by simpa using ht.earlier

/-- What becomes of an insertion, event by event. -/
theorem change {e : Event} {g g' : Group} {x : Option Note}
    (hl : Ledger g.holdings g.flushes g.nextFlush h) (hsub : after ⊆ h)
    (ht : Traced a rev g.holdings g.flushes after) (hc : Change e g g' x)
    (hother : ∀ c, x = some (.inserted c) → c.fingerprint ≠ a.fingerprint) :
    Traced a rev g'.holdings g'.flushes (after ++ x.toList) := by
  cases hc with
  | kept holdings flushes next =>
    rw [holdings, flushes]
    simpa using ht
  | inserted c holdings flushes next =>
    rw [holdings, flushes]
    exact ht.insert (hother c rfl)
  | opened f number waiting fired holdings flushes next =>
    rw [holdings, flushes]
    simpa using ht.openFlush waiting
  | taken f mem waiting holdings flushes next =>
    rw [holdings, flushes]
    exact take hl hsub ht mem waiting
  | delivered f s mem snapshot holdings flushes next =>
    rw [holdings, flushes]
    exact (settle hl hsub ht mem snapshot).drop f.number
  | dropped n holdings flushes next =>
    rw [holdings, flushes]
    simpa using ht.drop n

end Traced

/-! ## Runs -/

section Runs

variable {g₀ : Group} (h₀ : Ledger g₀.holdings g₀.flushes g₀.nextFlush [])
include h₀

theorem ledger_run (events : List Event) :
    Ledger (g₀.run events).holdings (g₀.run events).flushes (g₀.run events).nextFlush
      (g₀.history events) := by
  induction events using List.reverseRecOn with
  | nil => exact h₀
  | append_singleton events e ih =>
    rw [run_append, history_append]
    exact ih.change (change_react _ e)

theorem traced_run (events : List Event) {before after : List Note} {a : Alert}
    (hh : g₀.history events = before ++ .inserted a :: after)
    (hlast : ∀ c, .inserted c ∈ after → c.fingerprint ≠ a.fingerprint) :
    ∃ rev, Traced a rev (g₀.run events).holdings (g₀.run events).flushes after := by
  induction events using List.reverseRecOn generalizing after with
  | nil => simp [history] at hh
  | append_singleton events e ih =>
    have hl := ledger_run h₀ events
    have hc := change_react (g₀.run events) e
    rw [history_append] at hh
    rw [run_append]
    cases hx : (g₀.run events).note? e with
    | none =>
      -- nothing is noted: the insertion lies in the history so far
      rw [hx, Option.toList_none, List.append_nil] at hh
      obtain ⟨rev, ht⟩ := ih hh hlast
      refine ⟨rev, ?_⟩
      simpa [hx] using ht.change hl (by simp [hh]) hc (by simp [hx])
    | some x =>
      rw [hx, Option.toList_some] at hh
      -- the event noted last is the insertion itself or comes after it
      rcases List.eq_nil_or_concat after with rfl | ⟨after, y, rfl⟩
      · obtain ⟨rfl, hy⟩ := List.append_inj' hh rfl
        obtain rfl : x = .inserted a := by simpa using hy
        rw [hx] at hc
        cases hc with
        | inserted _ holdings flushes next =>
          exact ⟨_, by rw [holdings, flushes]; exact Traced.start hl a⟩
      · rw [List.concat_eq_append] at hh hlast ⊢
        rw [← List.cons_append, ← List.append_assoc] at hh
        obtain ⟨hold, hy⟩ := List.append_inj' hh rfl
        obtain rfl : x = y := by simpa using hy
        obtain ⟨rev, ht⟩ := ih hold fun c hm => hlast c (List.mem_append_left _ hm)
        have hother : ∀ c, (g₀.run events).note? e = some (.inserted c) →
            c.fingerprint ≠ a.fingerprint := by
          intro c hxc
          obtain rfl : x = .inserted c := Option.some.inj (hx.symm.trans hxc)
          exact hlast c (by simp)
        refine ⟨rev, ?_⟩
        simpa [hx] using ht.change hl (by simp [hold]) hc hother

end Runs

/-- **What a group holds** after any run: under a fingerprint the alert inserted last, unless a
flush that took its snapshot since was delivered and the alert was resolved when it was fired.
Something was sent exactly if a snapshot with alerts was delivered, and nothing but insertions and
successful deliveries changes what is held. -/
theorem held_after_run (labels : LabelSet) (route : Route) (serial : Nat) (isCancelled : Bool)
    (events : List Event) :
    let g₀ : Group := { labels, route, serial, isCancelled }
    let g := g₀.run events
    let h := g₀.history events
    (∀ before a after, h = before ++ .inserted a :: after →
      (∀ c, .inserted c ∈ after → c.fingerprint ≠ a.fingerprint) →
      g.held? a.fingerprint = if Cleared a after then none else some a) ∧
    (∀ fp, (∀ a, .inserted a ∈ h → a.fingerprint ≠ fp) → g.held? fp = none) ∧
    (g.holdings.hasSent = true ↔ ∃ n now, .taken n now ∈ h ∧ .delivered n ∈ h) ∧
    (∀ e, (∀ a, g.note? e ≠ some (.inserted a)) → (∀ n, g.note? e ≠ some (.delivered n)) →
      (g.react e).holdings = g.holdings) := by
  intro g₀ g h
  have h₀ : Ledger g₀.holdings g₀.flushes g₀.nextFlush [] := .start
  have hl := ledger_run h₀ events
  refine ⟨?_, ?_, ?_, ?_⟩
  · intro before a after hh hlast
    obtain ⟨rev, ht⟩ := traced_run h₀ events hh hlast
    rw [held?, ht.held]
    split <;> rfl
  · intro fp hnone
    rw [held?, Option.map_eq_none_iff, Option.eq_none_iff_forall_ne_some]
    intro e he
    obtain ⟨-, hfp, hm⟩ := hl.held fp e he
    exact hnone e.alert hm hfp
  · rw [hl.sent]
    constructor
    · intro hsent
      obtain ⟨n, hd⟩ := hsent
      obtain ⟨now, ht⟩ := hl.delivered n hd
      exact ⟨n, now, ht, hd⟩
    · intro hsent
      obtain ⟨n, now, -, hd⟩ := hsent
      exact ⟨n, hd⟩
  · intro e hi hd
    have hc := change_react g e
    generalize g.note? e = x at hc hi hd
    cases hc with
    | kept holdings | opened _ _ _ _ holdings | taken _ _ _ holdings | dropped _ holdings =>
      exact holdings
    | inserted a => exact absurd rfl (hi a)
    | delivered f => exact absurd rfl (hd f.number)

/-- An alert of a name that ended ten seconds after it started. -/
def endedAlert (name : String) : Alert := { alertFrom name 0 with endsAt := some ⟨10, 0⟩ }

/-- Two alerts that have ended are flushed, and one of them comes again before the delivery is over.
-/
def reinsertedRun : List Event :=
  [.insert ⟨0, 0⟩ (endedAlert "A"), .insert ⟨0, 0⟩ (endedAlert "B"), .start 0 .zero,
    .step (.fire (secondsIn 30)), .step (.beginFlush 0), .insert ⟨31, 0⟩ (endedAlert "B"),
    .step (.endFlush 0 true)]

/-- What a delivery clears, and what it leaves because it came again. -/
theorem delivered_clears_unless_reinserted :
    let g₀ := newAt (timedRoute (.ofSecs 30) (.ofSecs 300))
    let g := g₀.run reinsertedRun
    g₀.history reinsertedRun = [.inserted (endedAlert "A"), .inserted (endedAlert "B"),
      .taken 0 ⟨30, 0⟩, .inserted (endedAlert "B"), .delivered 0] ∧
    g.held? (endedAlert "A").fingerprint = none ∧
    g.held? (endedAlert "B").fingerprint = some (endedAlert "B") ∧
    g.holdings.hasSent = true := by
  intro g₀ g
  have hnotes : g₀.history reinsertedRun = [.inserted (endedAlert "A"), .inserted (endedAlert "B"),
      .taken 0 ⟨30, 0⟩, .inserted (endedAlert "B"), .delivered 0] := by
    decide +kernel
  obtain ⟨hheld, -, hsent, -⟩ := held_after_run .empty (timedRoute (.ofSecs 30) (.ofSecs 300)) 0
    false reinsertedRun
  refine ⟨hnotes, ?_, ?_, ?_⟩
  · have hfirst := hheld [] (endedAlert "A") _ hnotes fun c hc => ?_
    · apply hfirst.trans (if_pos _)
      exact ⟨0, ⟨30, 0⟩, by simp, by simp, by decide⟩
    · obtain rfl : c = endedAlert "B" := by simpa using hc
      decide +kernel
  · have hagain := hheld [.inserted (endedAlert "A"), .inserted (endedAlert "B"),
      .taken 0 ⟨30, 0⟩] (endedAlert "B") [.delivered 0] hnotes (by simp)
    apply hagain.trans (if_neg _)
    intro hcleared
    obtain ⟨n, now, htaken, -⟩ := hcleared
    simp at htaken
  · apply hsent.2
    show ∃ n now, .taken n now ∈ g₀.history reinsertedRun ∧ .delivered n ∈ g₀.history reinsertedRun
    rw [hnotes]
    exact ⟨0, ⟨30, 0⟩, by simp, by simp⟩

end AlertFlow.Group
