import AlertFlow.Proofs.Engine.Purity
import AlertFlow.Proofs.Engine.Silence
import AlertFlow.Proofs.LabelSet

/-!
How the engine classifies alerts. Every group stands under its route and the fingerprint of its
labels, with the alerts that have their place in it. No route stands in the map without groups,
unless a sweep is under way and has passed it. As long as fingerprints tell grouping labels apart,
two alerts come into one group of a route exactly if the route is selected for both and they agree
on the names that it groups by.
-/
namespace AlertFlow

/-- A route groups two label sets alike exactly if they agree on the names that it groups by. -/
theorem Route.grouping_eq_iff (r : Route) {x y : LabelSet} :
    r.grouping x = r.grouping y ↔
      ∀ name, r.options.groupBy.contains name = true → x.get? name = y.get? name :=
  LabelSet.restrict_eq_iff

/-! ## Routes without groups -/

namespace Sweep

/-- A sweep that has the routes without groups behind it. -/
structure Passes (m : GroupMap) (s : Sweep) : Prop where
  ahead : ∀ id ∈ s.routes, ∀ groups, m.get? id = some groups → groups.isEmpty = false
  found : ∀ p ∈ s.found, p.1 ∉ s.routes
  nodup : s.routes.Nodup

/-- A sweep empties only routes that it has looked through. -/
theorem Passes.step {m : GroupMap} {s : Sweep} (h : Passes m s) :
    Passes (s.step m).2 (s.step m).1 := by
  obtain ⟨hahead, hfound, hnodup⟩ := h
  obtain ⟨routes, found, _ | g⟩ := s
  · rcases found with _ | ⟨⟨id, fp⟩, found⟩
    · rcases routes with _ | ⟨id, routes⟩
      · exact ⟨hahead, hfound, hnodup⟩
      · -- the sweep looks through the next route, which is not among those behind it
        obtain ⟨hid, hnodup⟩ := List.nodup_cons.1 hnodup
        refine ⟨fun id' hmem => hahead id' (List.mem_cons_of_mem _ hmem), fun p hp => ?_, hnodup⟩
        obtain ⟨fp, -, rfl⟩ := List.mem_map.1 hp
        exact hid
    · -- a group is taken out under a route that the sweep has looked through
      have hid := hfound (id, fp) List.mem_cons_self
      refine ⟨fun id' hmem groups hget => ?_, fun p hp => ?_, hnodup⟩
      · have hne : id ≠ id' := fun heq => hid (heq ▸ hmem)
        exact hahead id' hmem groups (GroupMap.get?_remove hget hne)
      · exact hfound p (List.mem_cons_of_mem _ hp)
  · simp only [Sweep.step]
    split <;> exact ⟨hahead, hfound, hnodup⟩

end Sweep

namespace Engine

variable {e : Engine}

/-- No route is without groups, but behind a sweep. -/
structure Tidy (e : Engine) : Prop where
  free : e.sweep? = none → ∀ id groups, e.groups.get? id = some groups → groups.isEmpty = false
  sweeping : ∀ s, e.sweep? = some s → s.Passes e.groups

namespace Tidy

/-- Without a sweep there is nothing to be said but that no route is without groups. -/
theorem of_free (hfree : e.sweep? = none)
    (h : ∀ id groups, e.groups.get? id = some groups → groups.isEmpty = false) : Tidy e where
  free := fun _ => h
  sweeping := by simp [hfree]

theorem of_sweeping {s : Sweep} (hs : e.sweep? = some s) (h : s.Passes e.groups) : Tidy e where
  free := by simp [hs]
  sweeping := by
    intro s' hs'
    rw [hs] at hs'
    cases hs'
    exact h

theorem start (tree : Route) (settings : EngineSettings) : Tidy { tree, settings } :=
  of_free rfl fun id groups h => by cases h

theorem sort (ht : Tidy e) (hfree : e.sweep? = none) (m : Moment) (c : Bool) (a : Alert)
    (r : Route) : Tidy (sort m c a e r) := by
  have hfree' : (Engine.sort m c a e r).sweep? = none := by
    rw [sweep?, mainLoop_sort]
    exact hfree
  refine of_free hfree' fun id groups h => ?_
  rw [groups_sort] at h
  rw [Bool.eq_false_iff]
  intro hempty
  have := ht.free hfree id groups (GroupMap.get?_place h hempty)
  rw [this] at hempty
  cases hempty

/-- What is done to the groups where they stand concerns neither the routes of the map nor those
that the sweep has before it. -/
theorem congr {e' : Engine} (ht : Tidy e) {f : Sweep → Sweep}
    (hgroups : ∀ id groups, e'.groups.get? id = some groups → groups.isEmpty = true →
      ∃ groups', e.groups.get? id = some groups' ∧ groups'.isEmpty = true)
    (hsweep : e'.sweep? = e.sweep?.map f)
    (hf : ∀ s, (f s).routes = s.routes ∧ (f s).found = s.found) : Tidy e' := by
  have hkeeps : ∀ id, (∀ groups, e.groups.get? id = some groups → groups.isEmpty = false) →
      ∀ groups, e'.groups.get? id = some groups → groups.isEmpty = false := by
    intro id hid groups hget
    rw [Bool.eq_false_iff]
    intro hempty
    obtain ⟨groups', hget', hempty'⟩ := hgroups id groups hget hempty
    rw [hid groups' hget'] at hempty'
    cases hempty'
  refine ⟨fun hfree id => hkeeps id (ht.free (by simpa [hfree] using hsweep.symm) id),
    fun s' hs' => ?_⟩
  rw [hsweep, Option.map_eq_some_iff] at hs'
  obtain ⟨s, hs, rfl⟩ := hs'
  obtain ⟨hroutes, hfound⟩ := hf s
  obtain ⟨hahead, hbehind, hnodup⟩ := ht.sweeping s hs
  refine ⟨?_, ?_, ?_⟩
  · rw [hroutes]
    exact fun id hid => hkeeps id (hahead id hid)
  · rw [hroutes, hfound]
    exact hbehind
  · rwa [hroutes]

theorem step (ht : Tidy e) (s : Step) : Tidy (e.step s) := by
  have hst := stepped e s
  generalize e.step s = e' at hst
  cases hst with
  | moved serial s =>
    refine ht.congr (fun id groups => GroupMap.get?_mapGroups) (sweep?_mapGroups e _) ?_
    exact fun s => ⟨rfl, rfl⟩
  | idle => exact ht
  | started tick loop on free due =>
    have hfree : e.sweep? = none := sweep?_of_loop on free
    exact of_sweeping rfl ⟨fun id _ => ht.free hfree id, by simp [Sweep.start], e.groups.nodup⟩
  | swept loop sw on sweeping =>
    have hsw : e.sweep? = some sw := sweep?_of_loop on sweeping
    exact of_sweeping rfl (ht.sweeping sw hsw).step
  | cleared loop sw on sweeping done =>
    exact of_free rfl fun id groups h => GroupMap.get?_withoutEmptyRoutes h
  | stopped run registered =>
    refine ht.congr (f := fun s => s) (fun id groups hget hempty => ?_) ?_ fun s => ⟨rfl, rfl⟩
    · simp only [cancelRun] at hget
      split at hget
      · exact GroupMap.get?_mapGroups hget hempty
      · exact ⟨groups, hget, hempty⟩
    · rw [Option.map_id']
      exact sweep?_cancelRun e run

theorem react (ht : Tidy e) (x : Event) : Tidy (e.react x) := by
  have hx := reacted e x
  generalize e.react x = e' at hx
  cases hx with
  | idle => exact ht
  | begun tick off => exact of_free (sweep?_begin e tick) fun id groups h => by cases h
  | sorted loop on free m a r => exact ht.sort (sweep?_of_loop on free) m _ a r
  | finished loop on free =>
    have hfree : e.sweep? = none := sweep?_of_loop on free
    exact of_free rfl (ht.free hfree)
  | stepped s => exact ht.step s

theorem run (ht : Tidy e) (events : List Event) : Tidy (e.run events) :=
  run_keeps (fun _ x _ ht => ht.react x) ht

end Tidy

/-! ## Alerts that come into one group -/

/-- What is held at a place of the map. -/
def holdingsAt (e : Engine) (id : RouteId) (fp : Fingerprint) : Holdings :=
  ((e.groups.find? id fp).map Group.holdings).getD {}

/-- Whether an alert was put into the group of a serial number that stands under a route now: the
group has what was held at its place before, with the alert inserted. -/
def PutInto (e e' : Engine) (a : Alert) (id : RouteId) (serial : Nat) : Prop :=
  ∃ fp g, e'.groups.find? id fp = some g ∧ g.serial = serial ∧
    g.holdings = (e.holdingsAt id fp).insert a

/-- Whether the group at a place, if there is one, stands there later on. -/
def Stands (e e' : Engine) (id : RouteId) (fp : Fingerprint) : Prop :=
  ∀ g, e.groups.find? id fp = some g →
    ∃ g', e'.groups.find? id fp = some g' ∧ g'.serial = g.serial

/-- Whether the main loop is on and not at a sweep, so that it can take up an alert. -/
def IsReading (e : Engine) : Prop := e.mainLoop.isSome = true ∧ e.sweep? = none

variable {m : Moment} {c : Bool} {a b : Alert} {rs : List Route} {r : Route} {n : Nat}

/-- Where none of the routes files an alert nothing changes. -/
theorem find?_foldl_sort_of_not_files (hk : e.groups.Keyed) {id : RouteId} {fp : Fingerprint}
    (h : ¬ Route.Files rs a.labels id fp) :
    (rs.foldl (sort m c a) e).groups.find? id fp = e.groups.find? id fp := by
  induction rs generalizing e with
  | nil => rfl
  | cons r rs ih =>
    rw [Route.files_cons, not_or] at h
    rw [List.foldl_cons, ih (keyed_sort hk r) h.2, find?_sort hk, if_neg h.1]

/-- Where one of the routes files an alert it is inserted once, into the group that stands there if
there is one. -/
theorem find?_foldl_sort_of_mem (hk : e.groups.Keyed) (hnodup : (rs.map (·.id)).Nodup)
    (hr : r ∈ rs) :
    ∃ g, (rs.foldl (sort m c a) e).groups.find? r.id (r.grouping a.labels).fingerprint = some g ∧
      g.holdings = (e.holdingsAt r.id (r.grouping a.labels).fingerprint).insert a ∧
      ∀ g₀, e.groups.find? r.id (r.grouping a.labels).fingerprint = some g₀ →
        g.serial = g₀.serial := by
  induction rs generalizing e with
  | nil => cases hr
  | cons r' rs ih =>
    obtain ⟨hfirst, hrest⟩ := List.nodup_cons.1 hnodup
    rw [List.foldl_cons]
    rcases List.mem_cons.1 hr with rfl | hr
    · -- the routes behind this one file the alert under other identities
      have hnot : ¬ Route.Files rs a.labels r.id (r.grouping a.labels).fingerprint := by
        intro hfiles
        obtain ⟨r', hr', hid, -⟩ := hfiles
        exact hfirst (List.mem_map.2 ⟨r', hr', hid⟩)
      rw [find?_foldl_sort_of_not_files (keyed_sort hk r) hnot, find?_sort hk, if_pos ⟨rfl, rfl⟩]
      refine ⟨_, rfl, ?_⟩
      unfold taker holdingsAt
      cases e.groups.find? r.id (r.grouping a.labels).fingerprint with
      | none => exact ⟨by simp [Group.insert], by simp⟩
      | some g =>
        refine ⟨rfl, fun g₀ h => ?_⟩
        cases h
        rfl
    · have hid : r'.id ≠ r.id := fun heq => hfirst (List.mem_map.2 ⟨r, hr, heq.symm⟩)
      have hsame := find?_sort (m := m) (c := c) (a := a) hk r' r.id
        (r.grouping a.labels).fingerprint
      rw [if_neg fun h => hid h.1] at hsame
      rw [holdingsAt, ← hsame]
      exact ih (keyed_sort hk r') hrest hr

theorem IsReading.receive_eq_run (h : e.IsReading) (m : Moment) (a : Alert) :
    e.receive m a none = e.run ((e.tree.select a.labels).map (.sort m a)) := by
  obtain ⟨loop, on⟩ := Option.isSome_iff_exists.1 h.1
  refine Engine.receive_eq_run on ?_ m a
  have := h.2
  rwa [sweep?, on, Option.bind_some] at this

/-- A route that is selected for an alert has it in the group where it files it. -/
theorem IsReading.find?_receive (h : e.IsReading) (hd : e.tree.DistinctIds)
    (hk : e.groups.Keyed) (hr : r ∈ e.tree.select a.labels) (m : Moment) :
    ∃ g, (e.receive m a none).groups.find? r.id (r.grouping a.labels).fingerprint = some g ∧
      g.holdings = (e.holdingsAt r.id (r.grouping a.labels).fingerprint).insert a ∧
      ∀ g₀, e.groups.find? r.id (r.grouping a.labels).fingerprint = some g₀ →
        g.serial = g₀.serial := by
  obtain ⟨loop, on⟩ := Option.isSome_iff_exists.1 h.1
  rw [receive_eq on]
  exact find?_foldl_sort_of_mem hk (hd.nodup_select a.labels) hr

/-- An alert is put into a group of a route exactly if the route is selected for it, and the group
is the one where the route files it. -/
theorem IsReading.putInto_iff (h : e.IsReading) (hd : e.tree.DistinctIds) (hk : e.groups.Keyed)
    (hr : r ∈ e.tree.routes) (m : Moment) (a : Alert) (serial : Nat) :
    PutInto e (e.receive m a none) a r.id serial ↔ r ∈ e.tree.select a.labels ∧
      ∃ g, (e.receive m a none).groups.find? r.id (r.grouping a.labels).fingerprint = some g ∧
        g.serial = serial := by
  constructor
  · intro hput
    obtain ⟨fp, g, hg, hserial, hheld⟩ := hput
    by_cases hfiles : Route.Files (e.tree.select a.labels) a.labels r.id fp
    · obtain ⟨r', hselect, hid, rfl⟩ := hfiles
      have hsame := hd.eq_of_id (Route.mem_routes_of_mem_select hselect) hr hid
      subst hsame
      exact ⟨hselect, g, hg, hserial⟩
    · -- nothing changes there, while an insertion gives out a revision
      obtain ⟨loop, on⟩ := Option.isSome_iff_exists.1 h.1
      rw [receive_eq on, find?_foldl_sort_of_not_files hk hfiles] at hg
      rw [holdingsAt, hg] at hheld
      have := congrArg Holdings.nextRevision hheld
      simp [Holdings.insert] at this
  · intro hput
    obtain ⟨hselect, g, hg, hserial⟩ := hput
    obtain ⟨g', hg', hheld, -⟩ := h.find?_receive hd hk hselect m
    rw [hg] at hg'
    cases hg'
    exact ⟨_, g, hg, hserial, hheld⟩

/-- Two alerts come into one group of a route exactly if it is selected for both and they agree on
the names that it groups by. -/
theorem put_together_iff (hd : e.tree.DistinctIds) (hn : Numbered e) (hreads : e.IsReading)
    (hr : r ∈ e.tree.routes) (m m' : Moment) {between : List Event}
    (hreads' : ((e.receive m a none).run between).IsReading)
    (hfp : LabelSet.Unambiguous [r.grouping a.labels, r.grouping b.labels])
    (hstands : Stands (e.receive m a none) ((e.receive m a none).run between) r.id
      (r.grouping a.labels).fingerprint) :
    (∃ n, PutInto e (e.receive m a none) a r.id n ∧
      PutInto ((e.receive m a none).run between)
        (((e.receive m a none).run between).receive m' b none) b r.id n) ↔
      r ∈ e.tree.select a.labels ∧ r ∈ e.tree.select b.labels ∧
        ∀ name, r.options.groupBy.contains name = true →
          a.labels.get? name = b.labels.get? name := by
  have hn₁ : Numbered (e.receive m a none) := by
    rw [hreads.receive_eq_run]
    exact hn.run _
  have hput₁ := hreads.putInto_iff hd hn.keyed hr m a
  have hfind₁ := fun hselect => hreads.find?_receive hd hn.keyed (r := r) (a := a) hselect m
  have htree₁ : (e.receive m a none).tree = e.tree := tree_receive e m a none
  generalize e.receive m a none = e₁ at hn₁ hput₁ hfind₁ htree₁ hreads' hstands ⊢
  have hk₂ := (hn₁.run between).keyed
  have htree₂ : (e₁.run between).tree = e.tree := (tree_run e₁ between).trans htree₁
  have hd₂ : (e₁.run between).tree.DistinctIds := htree₂ ▸ hd
  have hput₂ := hreads'.putInto_iff hd₂ hk₂ (htree₂ ▸ hr) m' b
  rw [htree₂] at hput₂
  rw [← r.grouping_eq_iff]
  constructor
  · intro h
    obtain ⟨n, ha, hb⟩ := h
    obtain ⟨hselect, g, hg, rfl⟩ := (hput₁ n).1 ha
    obtain ⟨hselect', g', hg', hserial⟩ := (hput₂ _).1 hb
    refine ⟨hselect, hselect', hfp _ (by simp) _ (by simp) ?_⟩
    -- the group that takes up the second alert is the one that took up the first
    rw [hreads'.receive_eq_run, ← run_append] at hg'
    have hold : g ∈ e₁.allGroups := mem_allGroups.2 (.inl ⟨_, _, hg⟩)
    have hp := hn₁.persists_later hold _ (mem_allGroups.2 (.inl ⟨_, _, hg'⟩)) hserial
    rw [← (hn₁.keyed _ _ g hg).2, ← ((hn₁.run _).keyed _ _ g' hg').2]
    exact (congrArg LabelSet.fingerprint hp.labels).symm
  · intro h
    obtain ⟨hselect, hselect', heq⟩ := h
    obtain ⟨g₁, hg₁, -, -⟩ := hfind₁ hselect
    obtain ⟨g₂, hg₂, hsame⟩ := hstands g₁ hg₁
    obtain ⟨g₃, hg₃, -, hserial⟩ := hreads'.find?_receive hd₂ hk₂ (htree₂ ▸ hselect') m'
    refine ⟨g₁.serial, (hput₁ _).2 ⟨hselect, g₁, hg₁, rfl⟩, (hput₂ _).2 ⟨hselect', g₃, hg₃, ?_⟩⟩
    rw [heq] at hg₂
    exact (hserial g₂ hg₂).trans hsame

/-- **How alerts are classified**, at any time of any run. No route is without groups. A sweep has
the map to itself until it is over; it may leave routes without groups behind it, and no others, and
clears them away at its end. A group stands under the identity of its route and the fingerprint of
its grouping labels, at that place only, and no other route has groups there. Each alert that it
holds stands under its own fingerprint; the route is selected for it and groups it under the
fingerprint of the group. As long as fingerprints tell the grouping labels of two alerts apart, and
the group of the first stands when the second is taken up, they are put into one group of a route
exactly if it is selected for both and they agree, in presence and value, on every name that it
groups by. -/
theorem alerts_classified {tree : Route} (hd : tree.DistinctIds) (settings : EngineSettings)
    {events : List Event} (hr : Routed tree events) :
    let e := Engine.run { tree, settings } events
    (e.sweep? = none → ∀ id groups, e.groups.get? id = some groups → groups.isEmpty = false) ∧
    (∀ s, e.sweep? = some s → ∀ id ∈ s.routes, ∀ groups, e.groups.get? id = some groups →
      groups.isEmpty = false) ∧
    (∀ id fp g, e.groups.find? id fp = some g →
      (g.route.id = id ∧ g.labels.fingerprint = fp) ∧
      (g.route ∈ tree.routes ∧ ∀ r ∈ tree.routes, r.id = id → r = g.route) ∧
      (∀ id' fp' g', e.groups.find? id' fp' = some g' → g'.serial = g.serial →
        id' = id ∧ fp' = fp) ∧
      ∀ f c, g.holdings.held.get? f = some c → c.alert.fingerprint = f ∧
        g.route ∈ tree.select c.alert.labels ∧
        (g.route.grouping c.alert.labels).fingerprint = fp) ∧
    ∀ m a between m' b, ∀ r ∈ tree.routes,
      let e₁ := e.receive m a none
      let e₂ := e₁.run between
      e.IsReading → e₂.IsReading →
      LabelSet.Unambiguous [r.grouping a.labels, r.grouping b.labels] →
      Stands e₁ e₂ r.id (r.grouping a.labels).fingerprint →
      ((∃ n, PutInto e e₁ a r.id n ∧ PutInto e₂ (e₂.receive m' b none) b r.id n) ↔
        r ∈ tree.select a.labels ∧ r ∈ tree.select b.labels ∧
          ∀ name, r.options.groupBy.contains name = true →
            a.labels.get? name = b.labels.get? name) := by
  intro e
  have hn : Numbered e := numbered_run tree settings events
  have htree : e.tree = tree := tree_run _ events
  have ht : Tidy e := (Tidy.start tree settings).run events
  refine ⟨ht.free, fun s hs => (ht.sweeping s hs).ahead, fun id fp g hg => ?_, ?_⟩
  · obtain ⟨rfl, rfl⟩ := hn.keyed id fp g hg
    have hmem : g ∈ e.allGroups := mem_allGroups.2 (.inl ⟨_, _, hg⟩)
    have hpure := pure_run hd settings hr g hmem
    refine ⟨⟨rfl, rfl⟩, ⟨hpure.route, fun r hr => hd.eq_of_id hr hpure.route⟩, ?_, hpure.held⟩
    intro id' fp' g' hg' hserial
    have hsame := hn.eq_of_serial (mem_allGroups.2 (.inl ⟨_, _, hg'⟩)) hmem hserial
    obtain ⟨rfl, rfl⟩ := hn.keyed id' fp' g' hg'
    exact ⟨congrArg (·.route.id) hsame, congrArg Group.fingerprint hsame⟩
  · intro m a between m' b r hmem e₁ e₂ hreads hreads' hfp hstands
    have h := put_together_iff (htree.symm ▸ hd) hn hreads (htree.symm ▸ hmem) m m' hreads' hfp
      hstands
    rwa [htree] at h

/-- The group of the first alert has been notified, and a sweep has found nothing. -/
def flushedRun : List Event :=
  [.step (.group 0 (.fire (Group.secondsIn 30))), .step (.group 0 (.beginFlush 0)),
    .step (.startSweep 31000), .step .stepSweep, .step .stepSweep,
    .step (.group 0 (.endFlush 0 true))]

/-- An alert of the same name joins the group of another one. -/
theorem same_name_joins :
    let e := Engine.run { tree := namedRoute } [.begin 0]
    let e₁ := e.receive (Group.secondsIn 0) (Group.alertFrom "A" 0) none
    let e₂ := e₁.run flushedRun
    ∃ n, PutInto e e₁ (Group.alertFrom "A" 0) namedRoute.id n ∧
      PutInto e₂ (e₂.receive (Group.secondsIn 60) Group.zonedAlert none) Group.zonedAlert
        namedRoute.id n := by
  intro e e₁ e₂
  have hrouted : Routed namedRoute [.begin 0] := by simp [Routed]
  obtain ⟨-, -, -, h⟩ := alerts_classified (by decide +kernel) {} hrouted
  have hstands : (e₂.groups.find? namedRoute.id
        (namedRoute.grouping (Group.alertFrom "A" 0).labels).fingerprint).map (·.serial) =
      (e₁.groups.find? namedRoute.id
        (namedRoute.grouping (Group.alertFrom "A" 0).labels).fingerprint).map (·.serial) := by
    decide +kernel
  refine (h _ _ flushedRun (Group.secondsIn 60) Group.zonedAlert namedRoute List.mem_cons_self
    ⟨by decide +kernel, by decide +kernel⟩ ⟨by decide +kernel, by decide +kernel⟩
    (by decide +kernel) fun g hg => ?_).2 ⟨List.mem_cons_self, List.mem_cons_self, ?_⟩
  · rw [hg] at hstands
    exact Option.map_eq_some_iff.1 hstands
  · exact namedRoute.grouping_eq_iff.1 (by decide +kernel)

end Engine

end AlertFlow
