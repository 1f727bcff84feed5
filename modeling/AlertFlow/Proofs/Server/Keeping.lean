import AlertFlow.Proofs.Engine.Mirror
import AlertFlow.Proofs.Server.Reading

/-!
What becomes of the alerts in the store. Once the main loop has read all there is, and none of its
readings came too late, the engine has custody of the very alerts of which the store keeps the last:
so every alert in the store that still fires is in the groups of all its routes, and the overview
mirrors the store.
-/
namespace AlertFlow.Server

section Runs

variable (buffer : Nat) (tree : Route) (settings : EngineSettings) (events : List Event)

/-- The store holds what is left of the alerts in the log. -/
theorem stocks_run :
    ((setUp buffer tree settings).run events).alerts.Stocks
      (((setUp buffer tree settings).log events).stored ++
        ((setUp buffer tree settings).log events).sent) := by
  induction events using List.reverseRecOn with
  | nil => exact .ofCapacity buffer
  | append_singleton events e ih =>
    rw [run_concat, log_concat]
    generalize (setUp buffer tree settings).run events = s at ih ⊢
    cases e with
    | put batch =>
      show (s.alerts.put batch).Stocks (_ ++ (_ ++ batch))
      rw [← List.append_assoc]
      exact ih.put batch
    | mark f => exact ih
    | begin tick =>
      cases hloop : s.engine.mainLoop.isSome with
      | true => simpa [react, Log.enter, hloop] using ih
      | false =>
        -- the log begins anew with what is stored, and what is stored is left of itself
        simpa [react, Log.enter, hloop, begin] using ih.values
    | read m =>
      show (s.readStream m).alerts.Stocks _
      rw [alerts_readStream]
      exact ih
    | endRun =>
      show s.endRun.alerts.Stocks _
      rw [alerts_endRun]
      exact ih
    | engine step => exact ih

/-- Up to a time that no event comes after, the engine has custody of what was read. -/
theorem custody_run {t : Instant} (clock : ∀ e ∈ events, ∀ w ∈ e.wall?, w ≤ t) :
    Engine.Custody t (accepted ((setUp buffer tree settings).log events).read)
      ((setUp buffer tree settings).run events).engine := by
  induction events using List.reverseRecOn with
  | nil => exact .start t rfl rfl
  | append_singleton events e ih =>
    have ih := ih fun e he => clock e (List.mem_append_left _ he)
    have hwall := clock e (by simp)
    have hturn := turn_run buffer tree settings events e
    generalize ((setUp buffer tree settings).run (events ++ [e])).engine = engine,
      ((setUp buffer tree settings).log (events ++ [e])).read = read at hturn ⊢
    cases hturn with
    | idle => exact ih
    | begun tick => exact .start t rfl (Engine.sweep?_begin _ tick)
    | received m a error loop on free =>
      cases error with
      | none =>
        rw [accepted_concat, Engine.receive_eq on]
        exact ih.receive (by rw [Engine.sweep?, on, Option.bind_some, free]) a
      | some error =>
        -- an alert that comes with an error is neither accepted nor taken up
        rw [accepted_concat_error, Engine.receive_error]
        exact ih
    | ended => exact ih.endLoop
    | stepped step => exact ih.step step hwall

variable {buffer tree settings events}

/-- When all was read and nothing too late, what was accepted are the alerts of the log. -/
theorem accepted_of_isDrained
    (drained : ((setUp buffer tree settings).run events).isDrained = true)
    (inTime : ∀ x ∈ ((setUp buffer tree settings).log events).read, x.2 = none) :
    accepted ((setUp buffer tree settings).log events).read =
      ((setUp buffer tree settings).log events).stored ++
        ((setUp buffer tree settings).log events).sent := by
  obtain ⟨live, lost, hread, hp⟩ :=
    (tracked_run buffer tree settings events).passage_of_isDrained drained
  have hall : accepted ((setUp buffer tree settings).log events).read =
      ((setUp buffer tree settings).log events).read.map Prod.fst := by
    rw [accepted, List.filter_eq_self.2 fun x hx => by rw [inTime x hx]; rfl]
  have hlive := hp.sent_eq fun x hx => inTime x (by rw [hread]; exact List.mem_append_right _ hx)
  rw [hall, hread, List.map_append, ← hlive]
  simp [Function.comp_def]

end Runs

/-- **No firing alert is lost.** Take any run up to some time, in which the main loop has read all
there is and never too late. Every stored alert that fires is held, as it is stored, by the group of
every route selected for it. If routes have different identities, and the label sets met are told
apart by their fingerprints, then the overview mirrors the store. -/
theorem stored_alerts_kept (buffer : Nat) (tree : Route) (settings : EngineSettings)
    (events : List Event) (t : Instant) (clock : ∀ e ∈ events, ∀ w ∈ e.wall?, w ≤ t)
    (drained : ((setUp buffer tree settings).run events).isDrained = true)
    (inTime : ∀ x ∈ ((setUp buffer tree settings).log events).read, x.2 = none) :
    let s := (setUp buffer tree settings).run events
    let l := (setUp buffer tree settings).log events
    (∀ a ∈ s.alerts.alerts.values, a.isFiringAt t = true → ∀ r ∈ tree.select a.labels,
      ∃ g, s.engine.groups.find? r.id (r.grouping a.labels).fingerprint = some g ∧
        g.held? a.fingerprint = some a) ∧
    (tree.DistinctIds → LabelSet.Unambiguous ((l.stored ++ l.sent).map (·.labels)) →
      LabelSet.Unambiguous (tree.groupings (l.stored ++ l.sent)) →
      Overview.Mirrors tree s.alerts.alerts.values s.marker t (s.overview t)) := by
  intro s l
  have hs : s.alerts.Stocks (l.stored ++ l.sent) := stocks_run buffer tree settings events
  have hc := custody_run buffer tree settings events clock
  rw [accepted_of_isDrained drained inTime] at hc
  have htree : s.engine.tree = tree := tree_run buffer tree settings events
  constructor
  · intro a ha hfiring r hr
    rw [← htree] at hr
    exact Engine.heldAt?_eq_some.1 (hc.heldAt?_of_stored hs ha hfiring hr)
  · intro hd hlabels hgroupings
    rw [← htree] at hd hgroupings ⊢
    exact hc.mirrors hs hd hlabels hgroupings s.marker

/-- A route for pages, which groups by the names of alerts. -/
def pagerRoute : Route where
  id := .ofNat 2
  options :=
    { receiver := "pager", groupBy := .ofList ["alertname"], groupWait := .ofSecs 30,
      groupInterval := .ofSecs 300, repeatInterval := .ofSecs 14400 }
  matchers := .ofList [("severity", "page")]
  continues := false
  children := []

/-- A tree that sends pages to their route and keeps the rest. -/
def dutyTree : Route :=
  { pagerRoute with
    id := .ofNat 1, options := { pagerRoute.options with receiver := "desk" },
    matchers := .empty, children := [pagerRoute] }

/-- An alert of a severity that started with the epoch. -/
def alertOf (severity : String) (endsAt : Option Instant) : Alert where
  labels := .ofList [("alertname", "A"), ("severity", severity)]
  startsAt := ⟨0, 0⟩
  endsAt

/-- A page that has ended fires again while it is being delivered, and then a sweep starts. -/
def refiredRun : List Event :=
  [.put [alertOf "ticket" none], .begin 0, .read ⟨0, ⟨0, 0⟩⟩,
    .put [alertOf "page" (some ⟨10, 0⟩)], .read ⟨1000, ⟨1, 0⟩⟩,
    .engine (.group 1 (.fire ⟨31000, ⟨31, 0⟩⟩)), .engine (.group 1 (.beginFlush 0)),
    .put [alertOf "page" none], .read ⟨32000, ⟨32, 0⟩⟩,
    .engine (.group 1 (.endFlush 0 true)), .engine (.startSweep 40000), .engine .stepSweep]

/-- The page that fires again is kept, and shown. -/
theorem refired_page_kept :
    let s := (setUp 8 dutyTree {}).run refiredRun
    let page := alertOf "page" none
    (∃ g, s.engine.groups.find? pagerRoute.id (pagerRoute.grouping page.labels).fingerprint =
        some g ∧ g.held? page.fingerprint = some page) ∧
      Overview.Mirrors dutyTree s.alerts.alerts.values s.marker ⟨40, 0⟩ (s.overview ⟨40, 0⟩) := by
  intro s page
  have haccepts : pagerRoute.accepts page.labels = true := by decide +kernel
  have hbelow : Route.selectAmong page.labels dutyTree.children = [pagerRoute] := by
    show Route.selectAmong page.labels [pagerRoute] = [pagerRoute]
    rw [Route.selectAmong, if_pos haccepts, Route.select_eq]
    rfl
  have hselected : pagerRoute ∈ dutyTree.select page.labels := by
    rw [Route.select_eq, hbelow]
    exact List.mem_singleton_self pagerRoute
  obtain ⟨hheld, hmirrors⟩ := stored_alerts_kept 8 dutyTree {} refiredRun ⟨40, 0⟩
    (by decide +kernel) (by decide +kernel) (by decide +kernel)
  exact ⟨hheld page (by decide +kernel) (by decide +kernel) pagerRoute hselected,
    hmirrors (by decide +kernel) (by decide +kernel) (by decide +kernel)⟩

/-- A tree of one route, which groups by one label. -/
def zoneRoute : Route :=
  { pagerRoute with
    options := { pagerRoute.options with groupBy := .ofList ["a"] }, matchers := .empty }

/-- An alert with a value of that label. -/
def zoneAlert (zone name : String) : Alert where
  labels := .ofList [("a", zone), ("alertname", name)]
  startsAt := ⟨0, 0⟩

/-- Two values of the label make label sets that share a fingerprint. -/
def collidingRun : List Event :=
  [.begin 0, .put [zoneAlert "M2aij0tqp5F" "A", zoneAlert "Iuhr70HbklM" "B"],
    .read ⟨0, ⟨0, 0⟩⟩, .read ⟨0, ⟨0, 0⟩⟩]

/-- Label sets that share a fingerprint are grouped together: the overview has no entry for the
second one, though an alert that it groups is stored and fires. -/
theorem colliding_groups_merged :
    let s := (setUp 8 zoneRoute {}).run collidingRun
    (∀ e ∈ collidingRun, ∀ w ∈ e.wall?, w ≤ (⟨0, 0⟩ : Instant)) ∧ s.isDrained = true ∧
      (∀ x ∈ ((setUp 8 zoneRoute {}).log collidingRun).read, x.2 = none) ∧
      zoneRoute.DistinctIds ∧
      ¬ Overview.Mirrors zoneRoute s.alerts.alerts.values s.marker ⟨0, 0⟩
        (s.overview ⟨0, 0⟩) := by
  intro s
  refine ⟨by decide +kernel, by decide +kernel, by decide +kernel, by decide +kernel, ?_⟩
  intro h
  let labels : LabelSet := .ofList [("a", "Iuhr70HbklM")]
  have hone : (Overview.expected zoneRoute s.alerts.alerts.values s.marker ⟨0, 0⟩ labels).length =
      1 := by decide +kernel
  have hnone : ∀ g ∈ s.engine.groups.toGroups, g.labels ≠ labels := by decide +kernel
  obtain ⟨x, hx, hlabels⟩ := (h.entries labels).2 (List.ne_nil_of_length_eq_add_one hone)
  obtain ⟨g, hg, hsame⟩ := Overview.labels_of_mem_build hx
  exact hnone g hg (hsame.trans hlabels)

end AlertFlow.Server
