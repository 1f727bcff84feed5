import AlertFlow.Proofs.Server.Reading

/-!
What is lost between the store and the groups when the main loop falls behind.
-/
namespace AlertFlow.Server

/-- **What the main loop takes up.** In every run, an alert read without an error is inserted into
the group of every route selected for it, and one that comes with an error is passed over, nothing
being changed in the engine. Once the main loop has read all there is, it has read the alerts that
were stored and gone through those put since; those it has lost are the ones that the errors count
and the one that came with each error. -/
theorem readings_taken_up (buffer : Nat) (tree : Route) (settings : EngineSettings)
    (events : List Event) :
    let s := (setUp buffer tree settings).run events
    let l := (setUp buffer tree settings).log events
    (∀ m a, s.reading? = some (a, none) → ∀ r ∈ tree.select a.labels, ∃ g before,
      (s.readStream m).engine.groups.find? r.id (r.grouping a.labels).fingerprint = some g ∧
        g.holdings = Holdings.insert before a) ∧
    (∀ m a error, s.reading? = some (a, some error) → (s.readStream m).engine = s.engine) ∧
    (s.isDrained = true → ∃ live lost,
      l.read = l.stored.map (·, none) ++ live ∧ Passage l.sent live lost ∧
        l.sent.Perm (accepted live ++ lost) ∧
        lost.length = (live.map fun x => Passage.loss x.2).sum) := by
  intro s l
  refine ⟨?_, ?_, ?_⟩
  · intro m a hread r hr
    obtain ⟨loop, sub, sub', hloop, free, hsub, hnext, herror⟩ := reading?_eq_some.1 hread
    rw [readStream_eq hloop free hsub hnext m, herror]
    show ∃ g before, (s.engine.receive m a none).groups.find? _ _ = _ ∧ _
    rw [Engine.receive_eq hloop, tree_run]
    exact Engine.inserted_foldl_sort _ (keyed_run buffer tree settings events) ⟨r, hr, rfl, rfl⟩
  · intro m a error hread
    obtain ⟨loop, sub, sub', hloop, free, hsub, hnext, herror⟩ := reading?_eq_some.1 hread
    rw [readStream_eq hloop free hsub hnext m, herror]
    exact Engine.receive_error s.engine m a error
  · intro hd
    obtain ⟨live, lost, hread, hp⟩ :=
      (tracked_run buffer tree settings events).passage_of_isDrained hd
    exact ⟨live, lost, hread, hp, hp.perm, hp.length_lost⟩

/-- A tree of one route, which groups by nothing. -/
def soleRoute : Route where
  id := .ofNat 1
  options :=
    { receiver := "ops", groupWait := .ofSecs 30, groupInterval := .ofSecs 300,
      repeatInterval := .ofSecs 14400 }
  matchers := .empty
  continues := false
  children := []

/-- An alert of a name, firing since the epoch. -/
def firingAlert (name : String) : Alert where
  labels := .ofList [("alertname", name)]
  startsAt := ⟨0, 0⟩

/-- Two alerts are put into a feed that has room for one, before the main loop reads. -/
def overtakenRun : List Event := [.begin 0, .put [firingAlert "A", firingAlert "B"]]

/-- The alert that a late reading gives is not taken up: the main loop reads the second alert with
an error that counts the first, no group is made for it, and nothing is left to read. -/
theorem late_reading_passed_over :
    let s := (setUp 1 soleRoute {}).run overtakenRun
    let s' := s.readStream ⟨0, ⟨0, 0⟩⟩
    s.reading? = some (firingAlert "B", some (.lagged 1)) ∧ s'.isDrained = true ∧
      ¬ ∀ r ∈ soleRoute.select (firingAlert "B").labels, ∃ g,
        s'.engine.groups.find? r.id (r.grouping (firingAlert "B").labels).fingerprint = some g ∧
          g.held? (firingAlert "B").fingerprint = some (firingAlert "B") := by
  intro s s'
  have hnone : (s'.engine.groups.find? soleRoute.id
      (soleRoute.grouping (firingAlert "B").labels).fingerprint).isNone = true := by decide +kernel
  refine ⟨by decide +kernel, by decide +kernel, ?_⟩
  intro h
  obtain ⟨g, hg, -⟩ := h soleRoute (by simp [soleRoute, Route.select, Route.selectAmong])
  rw [hg] at hnone
  cases hnone

end AlertFlow.Server
