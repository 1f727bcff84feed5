import AlertFlow.Proofs.Engine.Step

/-!
How the engine takes up an alert: at every place the routing tree sends it to, the alert is inserted
into the group there, and no other place is touched.
-/
namespace AlertFlow

namespace Route

/-- The labels by which a route groups a label set. -/
def grouping (r : Route) (labels : LabelSet) : LabelSet := labels.restrict r.options.groupBy

/-- Whether a route among some files a label set at a place of the map of groups. -/
def Files (rs : List Route) (labels : LabelSet) (id : RouteId) (fp : Fingerprint) : Prop :=
  ∃ r ∈ rs, r.id = id ∧ (r.grouping labels).fingerprint = fp

instance (rs : List Route) (labels : LabelSet) (id : RouteId) (fp : Fingerprint) :
    Decidable (Files rs labels id fp) :=
  inferInstanceAs (Decidable (∃ r ∈ rs, _))

theorem files_cons {r : Route} {rs : List Route} {labels : LabelSet} {id : RouteId}
    {fp : Fingerprint} : Files (r :: rs) labels id fp ↔
      (r.id = id ∧ (r.grouping labels).fingerprint = fp) ∨ Files rs labels id fp := by
  simp [Files]

end Route

namespace Engine

variable {m : Moment} {c : Bool} {a : Alert} {e : Engine}

/-- The alert held at a place of the map under a fingerprint. -/
def heldAt? (e : Engine) (id : RouteId) (fp f : Fingerprint) : Option Alert :=
  (e.groups.find? id fp).bind (·.held? f)

theorem heldAt?_eq_some {id : RouteId} {fp f : Fingerprint} :
    e.heldAt? id fp f = some a ↔ ∃ g, e.groups.find? id fp = some g ∧ g.held? f = some a :=
  Option.bind_eq_some_iff

/-- The group that takes up a label set for a route: the one that stands there, or a new one. -/
def taker (e : Engine) (m : Moment) (c : Bool) (labels : LabelSet) (r : Route) : Group :=
  (e.groups.find? r.id (r.grouping labels).fingerprint).getD
    (e.newGroup m.tick c r (r.grouping labels))

theorem newGroup_eq (e : Engine) (tick : Nat) (c : Bool) (r : Route) (labels : LabelSet) :
    e.newGroup tick c r labels =
      Group.react { labels, route := r, serial := e.created, isCancelled := c }
        (.start tick e.settings.minGroupInterval) := rfl

@[simp] theorem route_newGroup (e : Engine) (tick : Nat) (r : Route) (labels : LabelSet) :
    (e.newGroup tick c r labels).route = r := by
  rw [newGroup_eq, Group.route_react]

@[simp] theorem labels_newGroup (e : Engine) (tick : Nat) (r : Route) (labels : LabelSet) :
    (e.newGroup tick c r labels).labels = labels := by
  rw [newGroup_eq, Group.labels_react]

@[simp] theorem holdings_newGroup (e : Engine) (tick : Nat) (r : Route) (labels : LabelSet) :
    (e.newGroup tick c r labels).holdings = {} := by
  simp only [newGroup, Group.start]

@[simp] theorem flushes_newGroup (e : Engine) (tick : Nat) (r : Route) (labels : LabelSet) :
    (e.newGroup tick c r labels).flushes = [] := by
  simp only [newGroup, Group.start]

@[simp] theorem held?_newGroup (e : Engine) (tick : Nat) (r : Route) (labels : LabelSet)
    (f : Fingerprint) : (e.newGroup tick c r labels).held? f = none := by
  simp [Group.held?]

/-- The taker stands, or will stand, at the place where the route files the labels. -/
theorem taker_place (hk : e.groups.Keyed) (labels : LabelSet) (r : Route) :
    (e.taker m c labels r).route.id = r.id ∧
      (e.taker m c labels r).fingerprint = (r.grouping labels).fingerprint := by
  unfold taker
  cases h : e.groups.find? r.id (r.grouping labels).fingerprint with
  | none => simp [Group.fingerprint]
  | some g => exact hk _ _ g h

theorem held?_taker (labels : LabelSet) (r : Route) (f : Fingerprint) :
    (e.taker m c labels r).held? f = e.heldAt? r.id (r.grouping labels).fingerprint f := by
  unfold taker heldAt?
  cases e.groups.find? r.id (r.grouping labels).fingerprint with
  | none => simp
  | some g => rfl

theorem groups_sort (e : Engine) (r : Route) :
    (sort m c a e r).groups = e.groups.place ((e.taker m c a.labels r).insert m.wall a) := by
  simp only [sort, taker, Route.grouping]
  split <;> simp [*]

@[simp] theorem tree_sort (e : Engine) (r : Route) : (sort m c a e r).tree = e.tree := by
  simp only [sort]
  split <;> rfl

@[simp] theorem mainLoop_sort (e : Engine) (r : Route) :
    (sort m c a e r).mainLoop = e.mainLoop := by
  simp only [sort]
  split <;> rfl

theorem find?_sort (hk : e.groups.Keyed) (r : Route) (id : RouteId) (fp : Fingerprint) :
    (sort m c a e r).groups.find? id fp =
      if r.id = id ∧ (r.grouping a.labels).fingerprint = fp then
        some ((e.taker m c a.labels r).insert m.wall a)
      else e.groups.find? id fp := by
  obtain ⟨hid, hfp⟩ := taker_place (m := m) (c := c) hk a.labels r
  have hid' : ((e.taker m c a.labels r).insert m.wall a).route.id = r.id := hid
  have hfp' : ((e.taker m c a.labels r).insert m.wall a).fingerprint =
      (r.grouping a.labels).fingerprint := hfp
  rw [groups_sort, GroupMap.find?_place, hid', hfp']

theorem keyed_sort (hk : e.groups.Keyed) (r : Route) : (sort m c a e r).groups.Keyed := by
  intro id fp g hg
  rw [find?_sort hk] at hg
  split at hg
  · next h =>
    cases hg
    obtain ⟨rfl, rfl⟩ := h
    exact taker_place hk a.labels r
  · exact hk id fp g hg

theorem heldAt?_sort (hk : e.groups.Keyed) (r : Route) (id : RouteId) (fp f : Fingerprint) :
    (sort m c a e r).heldAt? id fp f =
      if (r.id = id ∧ (r.grouping a.labels).fingerprint = fp) ∧ a.fingerprint = f then some a
      else e.heldAt? id fp f := by
  rw [heldAt?, find?_sort hk]
  by_cases h : r.id = id ∧ (r.grouping a.labels).fingerprint = fp
  · rw [if_pos h, Option.bind_some, Group.held?_insert, held?_taker]
    obtain ⟨rfl, rfl⟩ := h
    simp
  · rw [if_neg h, if_neg fun h' => h h'.1]
    rfl

theorem keyed_foldl_sort (rs : List Route) (hk : e.groups.Keyed) :
    (rs.foldl (sort m c a) e).groups.Keyed := by
  induction rs generalizing e with
  | nil => exact hk
  | cons r rs ih => exact ih (keyed_sort hk r)

@[simp] theorem tree_foldl_sort (rs : List Route) :
    (rs.foldl (sort m c a) e).tree = e.tree := by
  induction rs generalizing e with
  | nil => rfl
  | cons r rs ih => rw [List.foldl_cons, ih, tree_sort]

@[simp] theorem mainLoop_foldl_sort (rs : List Route) :
    (rs.foldl (sort m c a) e).mainLoop = e.mainLoop := by
  induction rs generalizing e with
  | nil => rfl
  | cons r rs ih => rw [List.foldl_cons, ih, mainLoop_sort]

theorem heldAt?_foldl_sort (rs : List Route) (hk : e.groups.Keyed) (id : RouteId)
    (fp f : Fingerprint) :
    (rs.foldl (sort m c a) e).heldAt? id fp f =
      if Route.Files rs a.labels id fp ∧ a.fingerprint = f then some a
      else e.heldAt? id fp f := by
  induction rs generalizing e with
  | nil => simp [Route.Files]
  | cons r rs ih =>
    rw [List.foldl_cons, ih (keyed_sort hk r), heldAt?_sort hk]
    simp only [Route.files_cons]
    by_cases hf : a.fingerprint = f
    · by_cases hr : r.id = id ∧ (r.grouping a.labels).fingerprint = fp <;> simp [hf, hr]
    · simp [hf]

theorem receive_eq {loop : MainLoop} (h : e.mainLoop = some loop) (m : Moment) (a : Alert) :
    e.receive m a none = (e.tree.select a.labels).foldl (sort m loop.isCancelled a) e := by
  simp only [receive, h]

theorem receive_error (e : Engine) (m : Moment) (a : Alert) (error : StreamError) :
    e.receive m a (some error) = e := by
  unfold receive
  split
  · next h => cases h
  · rfl

@[simp] theorem tree_receive (e : Engine) (m : Moment) (a : Alert) (error : Option StreamError) :
    (e.receive m a error).tree = e.tree := by
  simp only [receive]
  split
  · exact tree_foldl_sort _
  · rfl

@[simp] theorem mainLoop_receive (e : Engine) (m : Moment) (a : Alert)
    (error : Option StreamError) : (e.receive m a error).mainLoop = e.mainLoop := by
  simp only [receive]
  split
  · exact mainLoop_foldl_sort _
  · rfl

theorem keyed_receive (hk : e.groups.Keyed) (m : Moment) (a : Alert)
    (error : Option StreamError) : (e.receive m a error).groups.Keyed := by
  simp only [receive]
  split
  · exact keyed_foldl_sort _ hk
  · exact hk

/-- At each place where one of the routes files an alert, it is the insertion made last. -/
theorem inserted_foldl_sort (rs : List Route) (hk : e.groups.Keyed) {id : RouteId}
    {fp : Fingerprint} (h : Route.Files rs a.labels id fp) :
    ∃ g before, (rs.foldl (sort m c a) e).groups.find? id fp = some g ∧
      g.holdings = Holdings.insert before a := by
  induction rs using List.reverseRecOn with
  | nil => simp [Route.Files] at h
  | append_singleton rs r ih =>
    rw [List.foldl_append, List.foldl_cons, List.foldl_nil, find?_sort (keyed_foldl_sort rs hk)]
    by_cases hr : r.id = id ∧ (r.grouping a.labels).fingerprint = fp
    · rw [if_pos hr]
      exact ⟨_, _, rfl, rfl⟩
    · rw [if_neg hr]
      obtain ⟨r', hmem, hr'⟩ := h
      rcases List.mem_append.1 hmem with hmem | hmem
      · exact ih ⟨r', hmem, hr'⟩
      · cases List.mem_singleton.1 hmem
        exact absurd hr' hr

/-- What holds of every group and of those that are new, and is kept by an insertion, holds after
an alert was taken up. -/
theorem forall_foldl_sort {P : Group → Prop} (rs : List Route) (hk : e.groups.Keyed)
    (old : ∀ id fp g, e.groups.find? id fp = some g → P g)
    (new : ∀ (e : Engine), ∀ r ∈ rs, P (e.newGroup m.tick c r (r.grouping a.labels)))
    (insert : ∀ g, P g → P (g.insert m.wall a)) :
    ∀ id fp g, (rs.foldl (sort m c a) e).groups.find? id fp = some g → P g := by
  induction rs generalizing e with
  | nil => exact old
  | cons r rs ih =>
    refine ih (keyed_sort hk r) ?_ fun e r' hr' => new e r' (List.mem_cons_of_mem _ hr')
    intro id fp g hg
    rw [find?_sort hk] at hg
    split at hg
    · cases hg
      refine insert _ ?_
      unfold taker
      cases h : e.groups.find? r.id (r.grouping a.labels).fingerprint with
      | none => exact new e r List.mem_cons_self
      | some g => exact old _ _ g h
    · exact old id fp g hg

end Engine

end AlertFlow
