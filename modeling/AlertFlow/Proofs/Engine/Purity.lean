import AlertFlow.Proofs.Engine.Mirror
import AlertFlow.Proofs.Engine.Strays

/-!
Which alerts are in a group. Its route is selected for each of them, and groups each of them under
the fingerprint of the group; that is so of the alerts in delivery as well as of those held, and of
groups that are out of the map as well as of those in it.
-/
namespace AlertFlow

namespace Group

/-- Whether an alert has its place in a group, under a fingerprint. -/
def Fits (tree : Route) (g : Group) (f : Fingerprint) (a : Alert) : Prop :=
  a.fingerprint = f ∧ g.route ∈ tree.select a.labels ∧
    (g.route.grouping a.labels).fingerprint = g.fingerprint

/-- A group of a tree in which every alert has its place, in deliveries too. -/
structure Pure (tree : Route) (g : Group) : Prop where
  route : g.route ∈ tree.routes
  held : ∀ f e, g.holdings.held.get? f = some e → g.Fits tree f e.alert
  taken : ∀ fl ∈ g.flushes, ∀ s, fl.snapshot = some s → ∀ p ∈ s, g.Fits tree p.1 p.2.alert

namespace Pure

variable {tree : Route} {g g' : Group}

theorem new {r : Route} (hr : r ∈ tree.routes) (labels : LabelSet) (serial : Nat)
    (isCancelled : Bool) : Pure tree { labels, route := r, serial, isCancelled } where
  route := hr
  held := by simp
  taken := by simp

theorem fits_congr (hp : Persists g g') {f : Fingerprint} {a : Alert} (h : g.Fits tree f a) :
    g'.Fits tree f a := by
  rw [Fits, fingerprint, hp.route, hp.labels]
  exact h

/-- A change keeps a group pure unless it inserts an alert that has no place there. -/
theorem change (h : Pure tree g) (hp : Persists g g') {e : Event} {x : Option Note}
    (hc : Change e g g' x) (hnew : ∀ a, x = some (.inserted a) → g.Fits tree a.fingerprint a) :
    Pure tree g' := by
  refine ⟨hp.route ▸ h.route, fun f c hf => fits_congr hp ?_,
    fun fl hfl s hs p hmem => fits_congr hp ?_⟩
  · cases hc with
    | kept holdings | opened _ _ _ _ holdings | taken _ _ _ holdings | dropped _ holdings =>
      exact h.held f c (holdings ▸ hf)
    | inserted a holdings =>
      rw [holdings, Holdings.get?_insert] at hf
      split at hf
      · next hsame =>
        cases hf
        exact hsame ▸ hnew a rfl
      · exact h.held f c hf
    | delivered fl s mem snapshot holdings =>
      rw [holdings] at hf
      exact h.held f c (Holdings.get?_of_settle hf)
  · cases hc.flushOrigin hfl with
    | kept f₀ mem _ _ snapshot => exact h.taken f₀ mem s (snapshot ▸ hs) p hmem
    | taken _ _ _ _ snapshot =>
      -- what is taken was held
      rw [snapshot] at hs
      cases hs
      exact h.held p.1 p.2 (Holdings.mem_snapshot.1 hmem)
    | opened _ snapshot =>
      rw [snapshot] at hs
      cases hs

theorem react (h : Pure tree g) (e : Event)
    (hnew : ∀ a, g.note? e = some (.inserted a) → g.Fits tree a.fingerprint a) :
    Pure tree (g.react e) :=
  h.change (persists_react g e) (change_react g e) hnew

theorem insert (h : Pure tree g) (now : Instant) {a : Alert} (ha : g.Fits tree a.fingerprint a) :
    Pure tree (g.insert now a) := by
  refine h.react (.insert now a) fun c hc => ?_
  cases hc
  exact ha

end Pure

end Group

namespace Engine

variable {e : Engine} {tree : Route}

/-! ## What every group holds -/

@[simp] theorem tree_react (e : Engine) (x : Event) : (e.react x).tree = e.tree := by
  have hx := reacted e x
  generalize e.react x = e' at hx
  cases hx with
  | idle | begun | finished => rfl
  | sorted => exact tree_sort e _
  | stepped s => exact tree_step e s

theorem tree_run (e : Engine) (events : List Event) : (e.run events).tree = e.tree :=
  run_keeps (P := fun e' => e'.tree = e.tree) (fun _ _ _ heq => (tree_react _ _).trans heq) rfl

/-- Whether the main loop sorts alerts into groups of those routes only that are selected for them.
-/
def Routed (tree : Route) (events : List Event) : Prop :=
  ∀ m a r, .sort m a r ∈ events → r ∈ tree.select a.labels

/-- The group that takes up an alert is one of the route that the alert is sorted to. -/
theorem route_taker (hd : tree.DistinctIds) (hk : e.groups.Keyed)
    (hroutes : ∀ g ∈ e.allGroups, g.route ∈ tree.routes) {m : Moment} {c : Bool}
    {labels : LabelSet} {r : Route} (hr : r ∈ tree.routes) :
    (e.taker m c labels r).route = r := by
  unfold taker
  cases hf : e.groups.find? r.id (r.grouping labels).fingerprint with
  | none => simp
  | some g =>
    exact hd.eq_of_id (hroutes g (mem_allGroups.2 (.inl ⟨_, _, hf⟩))) hr (hk _ _ g hf).1

theorem pure_taker (hp : ∀ g ∈ e.allGroups, g.Pure tree) {m : Moment} {c : Bool}
    {labels : LabelSet} {r : Route} (hr : r ∈ tree.routes) :
    (e.taker m c labels r).Pure tree := by
  unfold taker
  cases hf : e.groups.find? r.id (r.grouping labels).fingerprint with
  | none =>
    rw [Option.getD_none, newGroup_eq]
    exact (Group.Pure.new hr _ _ _).react (.start _ _) (by simp [Group.note?])
  | some g => exact hp g (mem_allGroups.2 (.inl ⟨_, _, hf⟩))

theorem pure_react (hd : tree.DistinctIds) (hk : e.groups.Keyed)
    (hp : ∀ g ∈ e.allGroups, g.Pure tree) {x : Event}
    (hx : ∀ m a r, x = .sort m a r → r ∈ tree.select a.labels) :
    ∀ g ∈ (e.react x).allGroups, g.Pure tree := by
  intro g hg
  have hr := reacted e x
  generalize e.react x = e' at hg hr
  cases hr with
  | idle => exact hp g hg
  | begun tick => exact hp g (mem_allGroups_begin hg)
  | finished => exact hp g (mem_allGroups_endLoop hg)
  | sorted loop on free m a r =>
    rcases mem_allGroups_sort hk hg with rfl | hold
    · have hselect := hx m a r rfl
      have hmem := Route.mem_routes_of_mem_select hselect
      have hroute : (e.taker m loop.isCancelled a.labels r).route = r :=
        route_taker hd hk (fun g hg => (hp g hg).route) hmem
      refine (pure_taker hp hmem).insert m.wall ⟨rfl, ?_, ?_⟩
      · rwa [hroute]
      · rw [hroute]
        exact (taker_place hk a.labels r).2.symm
    · exact hp g hold
  | stepped s =>
    obtain ⟨g₀, hg₀, hm⟩ := moved_step hg
    have h₀ := hp g₀ hg₀
    cases hm with
    | still => exact h₀
    | cancelled => exact h₀.react .cancel (by simp [Group.note?])
    | stepped s' =>
      exact h₀.react (.step s') fun a ha => absurd ha (g₀.note?_step_ne_inserted s' a)

/-- **Every alert has its place** in the group that it is in. -/
theorem pure_run (hd : tree.DistinctIds) (settings : EngineSettings) {events : List Event}
    (hr : Routed tree events) :
    ∀ g ∈ (Engine.run { tree, settings } events).allGroups, g.Pure tree := by
  induction events using List.reverseRecOn with
  | nil =>
    intro g hg
    cases (hg : g ∈ [])
  | append_singleton events x ih =>
    rw [run_concat]
    refine pure_react hd (numbered_run tree settings events).keyed
      (ih fun m a r hmem => hr m a r (List.mem_append_left _ hmem)) ?_
    rintro m a r rfl
    exact hr m a r (by simp)

end Engine

end AlertFlow
