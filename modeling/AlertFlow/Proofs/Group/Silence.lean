import AlertFlow.Proofs.Group.Course
import AlertFlow.Rehearsal.Stage

/-!
What cancelling does to a group. Whatever was under way, from then on no flush takes a snapshot, so
that no delivery begins, and no delivery counts any more: alerts still come in, and none goes. The
timer and the flushes that are left can all end.
-/
namespace AlertFlow.Group

variable {g g' : Group}

/-- At a cancelled group nothing is noted but insertions. -/
theorem note?_of_cancelled (hc : g.isCancelled = true) (e : Event) :
    g.note? e = none ∨ ∃ a, g.note? e = some (.inserted a) := by
  rcases e with ⟨now, a⟩ | _ | _ | _ | (_ | _ | number | ⟨number, _ | _⟩ | _)
  case insert => exact .inr ⟨a, rfl⟩
  case step.beginFlush =>
    left
    simp only [note?]
    split
    · rw [hc, Bool.or_true]
      rfl
    · rfl
  case step.endFlush.true =>
    left
    simp only [note?]
    split
    · rw [hc]
      rfl
    · rfl
  all_goals exact .inl rfl

/-- The end of a delivery, however it turns out, only drops it from a cancelled group. -/
theorem endFlush_of_cancelled (hc : g.isCancelled = true) (number : Nat) (delivered : Bool) :
    g.endFlush number delivered = g.dropFlush number := by
  unfold endFlush
  split
  · split
    · rw [if_neg (fun h => h.2 hc)]
    · rfl
  · next hnone =>
    have : g.flushes.filter (fun f => decide (f.number ≠ number)) = g.flushes := by
      rw [List.filter_eq_self]
      intro f hf
      have := List.find?_eq_none.1 hnone f hf
      simpa using this
    rw [dropFlush, this]

/-- What a cancelled group can come to: alerts have been inserted and none was given up, no delivery
has begun, and none that was under way can count. -/
structure Muted (g g' : Group) : Prop where
  cancelled : g'.isCancelled = true
  holdings : ∃ inserted : List Alert, g'.holdings = inserted.foldl Holdings.insert g.holdings
  sent : g'.holdings.hasSent = g.holdings.hasSent
  deliveries : ∀ f ∈ g'.flushes, f.snapshot.isSome = true → f ∈ g.flushes
  results : ∀ number delivered, g'.endFlush number delivered = g'.dropFlush number

namespace Muted

theorem refl (hc : g.isCancelled = true) : Muted g g :=
  ⟨hc, ⟨[], rfl⟩, rfl, fun _ hf _ => hf, endFlush_of_cancelled hc⟩

theorem react (hm : Muted g g') (e : Event) : Muted g (g'.react e) := by
  have hcancelled := (persists_react g' e).cancelled hm.cancelled
  have hresults := endFlush_of_cancelled hcancelled
  obtain ⟨inserted, hheld⟩ := hm.holdings
  have hc := change_react g' e
  have hx := note?_of_cancelled hm.cancelled e
  generalize g'.note? e = x at hc hx
  generalize g'.react e = g'' at hc hcancelled hresults
  cases hc with
  | kept holdings flushes =>
    exact ⟨hcancelled, ⟨inserted, holdings.trans hheld⟩, holdings ▸ hm.sent,
      flushes ▸ hm.deliveries, hresults⟩
  | inserted a holdings flushes =>
    refine ⟨hcancelled, ⟨inserted ++ [a], ?_⟩, ?_, flushes ▸ hm.deliveries, hresults⟩
    · rw [holdings, hheld, List.foldl_concat]
    · rw [holdings, Holdings.hasSent_insert, hm.sent]
  | opened f _ waiting _ holdings flushes =>
    refine ⟨hcancelled, ⟨inserted, holdings.trans hheld⟩, holdings ▸ hm.sent, ?_, hresults⟩
    rw [flushes]
    refine List.forall_mem_append.2 ⟨hm.deliveries, List.forall_mem_singleton.2 ?_⟩
    simp [waiting]
  | taken | delivered =>
    rcases hx with hx | ⟨a, hx⟩
    · cases hx
    · cases hx
  | dropped _ holdings flushes =>
    refine ⟨hcancelled, ⟨inserted, holdings.trans hheld⟩, holdings ▸ hm.sent, ?_, hresults⟩
    rw [flushes]
    exact fun f hf => hm.deliveries f (List.mem_of_mem_filter hf)

end Muted

/-- **A cancelled group stays silent**, whatever happens at it. -/
theorem muted_run (hc : g.isCancelled = true) (events : List Event) : Muted g (g.run events) := by
  induction events using List.reverseRecOn with
  | nil => exact .refl hc
  | append_singleton events e ih =>
    rw [run_append]
    exact ih.react e

/-! ## Ending -/

/-- Whether a step ends the timer of a group, or gives up one of its flushes. -/
def Step.isEnding : Step → Bool
  | .endTimer | .endFlush _ false => true
  | _ => false

/-- The steps by which a cancelled group ends: its timer ends, and then one flush after another. -/
def endings (g : Group) : List Step :=
  .endTimer :: g.flushes.map fun f => .endFlush f.number false

theorem isEnding_of_mem_endings {s : Step} (hs : s ∈ g.endings) : s.isEnding = true := by
  rcases List.mem_cons.1 hs with rfl | hs
  · rfl
  · obtain ⟨f, -, rfl⟩ := List.mem_map.1 hs
    rfl

/-- A group whose timer has ended has ended itself when each of its flushes was given up. -/
theorem hasEnded_of_flushes (hc : g.isCancelled = true) (ended : g.timer = .ended) {l : List Flush}
    (hl : ∀ f ∈ g.flushes, f.number ∈ l.map (·.number)) :
    ((l.map fun f => Step.endFlush f.number false).foldl step g).hasEnded = true := by
  induction l generalizing g with
  | nil =>
    have hnone : g.flushes = [] := List.eq_nil_iff_forall_not_mem.2 fun f hf => by
      simpa using hl f hf
    simp [hasEnded, hnone, ended]
  | cons f l ih =>
    rw [List.map_cons, List.foldl_cons]
    show (List.foldl step (g.endFlush f.number false) _).hasEnded = true
    rw [endFlush_of_cancelled hc]
    apply ih (g := g.dropFlush f.number) hc ended
    intro f' hf'
    obtain ⟨hmem, hne⟩ := List.mem_filter.1 hf'
    rcases List.mem_cons.1 (List.map_cons ▸ hl f' hmem) with heq | hmem
    · simp [heq] at hne
    · exact hmem

/-- **A cancelled group can end.** -/
theorem hasEnded_endings (hc : g.isCancelled = true) :
    (g.endings.foldl step g).hasEnded = true := by
  have htimer : g.endTimer = { g with timer := .ended } := if_pos hc
  rw [endings, List.foldl_cons]
  show (List.foldl step g.endTimer _).hasEnded = true
  rw [htimer]
  apply hasEnded_of_flushes (g := { g with timer := .ended }) hc rfl
  intro f hf
  exact List.mem_map_of_mem hf

end AlertFlow.Group

namespace AlertFlow.Rehearsal.Stage

/-- What a stage shows of a cancelled group while it goes from one state to another: deliveries that
are dropped, and nothing that is sent. -/
def OnlyDrops (g : Group) (before after : Stage × Group) : Prop :=
  Group.Muted g after.2 ∧
    ∃ entries, after.1.log = before.1.log ++ entries ∧ ∀ x ∈ entries, x.occurrence = .ended .dropped

theorem OnlyDrops.finish {g g' : Group} {before : Stage × Group} {st : Stage}
    (h : OnlyDrops g before (st, g')) (tick number : Nat) :
    OnlyDrops g before (st.finish tick g' number .dropped) := by
  obtain ⟨hm, entries, hlog, hdrops⟩ := h
  refine ⟨hm.react (.step (.endFlush number false)), entries ++ [⟨tick, g'.route.id,
    g'.route.options.receiver, g'.labels, .ended .dropped⟩], ?_, ?_⟩
  · rw [← List.append_assoc, ← hlog]
    rfl
  · exact List.forall_mem_append.2 ⟨hdrops, List.forall_mem_singleton.2 rfl⟩

/-- All flushes of a cancelled group are dropped. -/
theorem OnlyDrops.endDeliveries {g g' : Group} {before : Stage × Group} {st : Stage}
    (h : OnlyDrops g before (st, g')) (tick : Nat) :
    OnlyDrops g before (st.endDeliveries tick g') := by
  unfold Stage.endDeliveries
  generalize g'.flushes = fs
  induction fs generalizing st g' with
  | nil => exact h
  | cons f fs ih =>
    have hending : st.ending? tick g' f = some .dropped := by
      rw [ending?, if_pos h.1.cancelled]
    simp only [List.foldl_cons, hending]
    exact ih (h.finish tick f.number)

/-- **A cancelled group in a rehearsal**: settling it drops its deliveries and begins none. -/
theorem settle_of_cancelled (st : Stage) (m : Moment) {g : Group} (hc : g.isCancelled = true) :
    OnlyDrops g (st, g) (st.settle m g) := by
  have hstart : OnlyDrops g (st, g) (st, g) := ⟨.refl hc, [], by simp, by simp⟩
  have hends := hstart.endDeliveries m.tick
  unfold settle
  generalize st.endDeliveries m.tick g = ended at hends
  obtain ⟨st', g'⟩ := ended
  obtain ⟨hm, hlog⟩ := hends
  dsimp only
  rw [if_pos hm.cancelled]
  exact ⟨hm.react (.step .endTimer), hlog⟩

end AlertFlow.Rehearsal.Stage
