import AlertFlow.Proofs.Selection
import AlertFlow.Route.Config

/-!
How the nodes of a configured tree inherit. An option of a node is the one set nearest to it on the
way down from the root, the node itself included, or the default where none is set. A tree can be
built exactly if this gives every node a receiver, and the tree built stands node by node for the
configured one.
-/
namespace AlertFlow.RouteConfig

/-! ## Trails -/

/-- The nodes on the way down a path, the first one first. Children are counted from zero. -/
def trail? : RouteConfig → List Nat → Option (List RouteConfig)
  | c, [] => some [c]
  | c, i :: path => (c.children[i]?.bind (trail? · path)).map (c :: ·)

/-- The value of an option at the node of a trail that sets it last. -/
def nearest? {α : Type} (option : RouteConfig → Option α) (trail : List RouteConfig) : Option α :=
  trail.reverse.findSome? option

/-- The options at the end of a trail. -/
def effective (trail : List RouteConfig) : RouteOptions where
  receiver := (nearest? (·.receiver) trail).getD ""
  groupBy := (nearest? (·.groupBy) trail).getD .empty
  groupWait := (nearest? (·.groupWait) trail).getD (.ofSecs 30)
  groupInterval := (nearest? (·.groupInterval) trail).getD (.ofSecs 300)
  repeatInterval := (nearest? (·.repeatInterval) trail).getD (.ofSecs 14400)

/-- The options at the end of a trail that starts below a node with the given ones. -/
def inherit (inherited : RouteOptions) (trail : List RouteConfig) : RouteOptions :=
  trail.foldl (fun o c => c.options o) inherited

theorem nearest?_cons {α : Type} (option : RouteConfig → Option α) (c : RouteConfig)
    (trail : List RouteConfig) :
    nearest? option (c :: trail) = (nearest? option trail).or (option c) := by
  rw [nearest?, List.reverse_cons, List.findSome?_append, List.findSome?_singleton]
  rfl

/-- An option that each node takes from itself or else from above comes from the nearest node that
sets it. -/
theorem inherit_eq {α : Type} {field : RouteOptions → α} {option : RouteConfig → Option α}
    (step : ∀ c o, field (c.options o) = (option c).getD (field o)) (inherited : RouteOptions)
    (trail : List RouteConfig) :
    field (inherit inherited trail) = (nearest? option trail).getD (field inherited) := by
  induction trail generalizing inherited with
  | nil => rfl
  | cons c trail ih =>
    show field (inherit (c.options inherited) trail) = _
    rw [ih, step, nearest?_cons]
    cases nearest? option trail <;> rfl

theorem effective_eq (trail : List RouteConfig) : effective trail = inherit .defaults trail := by
  have hreceiver := inherit_eq (fun c o => (rfl : (c.options o).receiver = _)) .defaults trail
  have hby := inherit_eq (fun c o => (rfl : (c.options o).groupBy = _)) .defaults trail
  have hwait := inherit_eq (fun c o => (rfl : (c.options o).groupWait = _)) .defaults trail
  have hinterval := inherit_eq (fun c o => (rfl : (c.options o).groupInterval = _)) .defaults trail
  have hrepeat := inherit_eq (fun c o => (rfl : (c.options o).repeatInterval = _)) .defaults trail
  rcases h : inherit .defaults trail with ⟨receiver, groupBy, wait, interval, repetition⟩
  rw [h] at hreceiver hby hwait hinterval hrepeat
  rw [effective, RouteOptions.mk.injEq]
  exact ⟨hreceiver.symm, hby.symm, hwait.symm, hinterval.symm, hrepeat.symm⟩

/-! ## Building -/

variable {ids : List Nat → RouteId}

mutual

/-- What holds of a node whenever it holds of its children holds of every node. -/
theorem induct {P : RouteConfig → Prop} (step : ∀ c, (∀ d ∈ c.children, P d) → P c) : ∀ c, P c
  | ⟨_, _, _, _, _, _, _, children⟩ => step _ (inductAmong step children)

theorem inductAmong {P : RouteConfig → Prop} (step : ∀ c, (∀ d ∈ c.children, P d) → P c) :
    ∀ l : List RouteConfig, ∀ c ∈ l, P c
  | [] => List.forall_mem_nil P
  | c :: rest => List.forall_mem_cons.2 ⟨induct step c, inductAmong step rest⟩

end

theorem buildUnder_eq (inherited : RouteOptions) (path : List Nat) (c : RouteConfig) :
    buildUnder ids inherited path c =
      if (c.options inherited).receiver = "" then .error .routeRequiresReceiver
      else (buildAll ids (c.options inherited) path 0 c.children).map fun children =>
        { id := ids path, options := c.options inherited, matchers := c.matchers,
          continues := c.continues, children } := by
  obtain ⟨receiver, groupBy, groupWait, groupInterval, repeatInterval, matchers, continues,
    children⟩ := c
  rw [buildUnder]
  split
  · rfl
  · generalize buildAll ids _ path 0 children = result
    cases result <;> rfl

/-- Siblings are built one by one, in their order. -/
theorem buildAll_eq_ok {inherited : RouteOptions} {path : List Nat} {i : Nat}
    {l : List RouteConfig} {routes : List Route}
    (h : buildAll ids inherited path i l = .ok routes) (k : Nat) :
    Option.Rel (fun c r => buildUnder ids inherited (path ++ [i + k]) c = .ok r) l[k]?
      routes[k]? := by
  induction l generalizing i k routes with
  | nil =>
    cases h
    exact .none
  | cons c rest ih =>
    rw [buildAll] at h
    cases hc : buildUnder ids inherited (path ++ [i]) c with
    | error e =>
      rw [hc] at h
      cases h
    | ok r =>
      cases hrest : buildAll ids inherited path (i + 1) rest with
      | error e =>
        rw [hc, hrest] at h
        cases h
      | ok routes' =>
        rw [hc, hrest] at h
        cases h
        cases k with
        | zero => exact .some hc
        | succ k =>
          have := ih hrest k
          rwa [Nat.add_right_comm, Nat.add_assoc] at this

/-- If siblings cannot be built, then one of them cannot. -/
theorem buildAll_eq_error {inherited : RouteOptions} {path : List Nat} {i : Nat}
    {l : List RouteConfig} {e : DomainError} (h : buildAll ids inherited path i l = .error e) :
    ∃ k c, l[k]? = some c ∧ buildUnder ids inherited (path ++ [i + k]) c = .error e := by
  induction l generalizing i with
  | nil => cases h
  | cons c rest ih =>
    rw [buildAll] at h
    cases hc : buildUnder ids inherited (path ++ [i]) c with
    | error e' =>
      rw [hc] at h
      cases h
      exact ⟨0, c, rfl, hc⟩
    | ok r =>
      cases hrest : buildAll ids inherited path (i + 1) rest with
      | error e' =>
        rw [hc, hrest] at h
        cases h
        obtain ⟨k, d, hd, hfail⟩ := ih hrest
        refine ⟨k + 1, d, hd, ?_⟩
        rwa [Nat.add_right_comm, Nat.add_assoc] at hfail
      | ok routes =>
        rw [hc, hrest] at h
        cases h

/-! ## What is built -/

/-- A route with the given options that stands for the last node of a trail. -/
structure StandsFor (trail : List RouteConfig) (options : RouteOptions) (r : Route) : Prop where
  node : ∃ n, trail.getLast? = some n ∧ r.matchers = n.matchers ∧ r.continues = n.continues
  options : r.options = options
  receiver : r.options.receiver ≠ ""

theorem StandsFor.below {trail : List RouteConfig} {options : RouteOptions} {r : Route}
    (h : StandsFor trail options r) (c : RouteConfig) : StandsFor (c :: trail) options r := by
  obtain ⟨n, hn, hnode⟩ := h.node
  refine ⟨⟨n, ?_, hnode⟩, h.options, h.receiver⟩
  rw [List.getLast?_cons, hn, Option.getD_some]

/-- At every path a built tree has a route exactly if the configured tree has a node there, and the
route stands for the node. -/
theorem at?_of_buildUnder {inherited : RouteOptions} {path : List Nat} {c : RouteConfig}
    {r : Route} (h : buildUnder ids inherited path c = .ok r) (q : List Nat) :
    Option.Rel (fun trail s => StandsFor trail (inherit inherited trail) s ∧ s.id = ids (path ++ q))
      (c.trail? q) (r.at? q) := by
  induction c using induct generalizing inherited path r q with
  | step c ih =>
    rw [buildUnder_eq] at h
    split at h
    · cases h
    · next hreceiver =>
      cases hall : buildAll ids (c.options inherited) path 0 c.children with
      | error e =>
        rw [hall] at h
        cases h
      | ok routes =>
        rw [hall] at h
        cases h
        cases q with
        | nil =>
          refine .some ⟨⟨⟨c, rfl, rfl, rfl⟩, rfl, hreceiver⟩, ?_⟩
          rw [List.append_nil]
        | cons i q =>
          -- below the node, the trail goes on at a child and the route is one of the child's tree
          have hchild := buildAll_eq_ok hall i
          rw [trail?, Route.at?_cons]
          show Option.Rel _ _ (routes[i]?.bind (Route.at? · q))
          generalize hd : c.children[i]? = child, routes[i]? = route at hchild ⊢
          cases hchild with
          | none => exact .none
          | @some d s hbuild =>
            have hbelow := ih d (List.mem_of_getElem? hd) hbuild q
            rw [Option.bind_some, Option.bind_some]
            generalize d.trail? q = trail, s.at? q = place at hbelow ⊢
            cases hbelow with
            | none => exact .none
            | some hs =>
              obtain ⟨hstands, hid⟩ := hs
              refine .some ⟨hstands.below c, ?_⟩
              rw [hid, Nat.zero_add, List.append_assoc]
              rfl

/-- A tree cannot be built if some node is left without a receiver, and only then. -/
theorem buildUnder_eq_error {inherited : RouteOptions} {path : List Nat} {c : RouteConfig}
    {e : DomainError} (h : buildUnder ids inherited path c = .error e) :
    e = .routeRequiresReceiver ∧
      ∃ q trail, c.trail? q = some trail ∧ (inherit inherited trail).receiver = "" := by
  induction c using induct generalizing inherited path with
  | step c ih =>
    rw [buildUnder_eq] at h
    split at h
    · next hreceiver =>
      cases h
      exact ⟨rfl, [], [c], rfl, hreceiver⟩
    · cases hall : buildAll ids (c.options inherited) path 0 c.children with
      | ok routes =>
        rw [hall] at h
        cases h
      | error e' =>
        rw [hall] at h
        cases h
        obtain ⟨i, d, hd, hfail⟩ := buildAll_eq_error hall
        obtain ⟨rfl, q, trail, hq, hreceiver⟩ := ih d (List.mem_of_getElem? hd) hfail
        refine ⟨rfl, i :: q, c :: trail, ?_, hreceiver⟩
        rw [trail?, hd, Option.bind_some, hq, Option.map_some]

/-- **Configured trees are built whole, and their nodes inherit.** A tree can be built exactly if
the options that are effective at every node name a receiver, and there is no other reason to fail.
What is built has a route for every node and no other, with the matchers of the node, continuing as
it does, and with the options that are effective there. So every route has a receiver. -/
theorem build_inherits (ids : List Nat → RouteId) (c : RouteConfig) :
    ((∃ r, c.build ids = .ok r) ↔
      ∀ path trail, c.trail? path = some trail → (effective trail).receiver ≠ "") ∧
    (∀ e, c.build ids = .error e → e = .routeRequiresReceiver) ∧
    ∀ r, c.build ids = .ok r → ∀ path,
      Option.Rel (fun trail s => StandsFor trail (effective trail) s ∧ s.id = ids path)
        (c.trail? path) (r.at? path) := by
  have hbuilt : ∀ r, c.build ids = .ok r → ∀ path,
      Option.Rel (fun trail s => StandsFor trail (effective trail) s ∧ s.id = ids path)
        (c.trail? path) (r.at? path) := by
    intro r hr path
    simp only [effective_eq]
    exact at?_of_buildUnder hr path
  refine ⟨⟨?_, ?_⟩, ?_, hbuilt⟩
  · intro hr path trail htrail
    obtain ⟨r, hr⟩ := hr
    have hplace := hbuilt r hr path
    rw [htrail] at hplace
    generalize r.at? path = place at hplace
    cases hplace with
    | some hs =>
      rw [← hs.1.options]
      exact hs.1.receiver
  · intro hreceivers
    cases hr : c.build ids with
    | ok r => exact ⟨r, rfl⟩
    | error e =>
      obtain ⟨-, path, trail, htrail, hreceiver⟩ := buildUnder_eq_error hr
      rw [← effective_eq] at hreceiver
      exact absurd hreceiver (hreceivers path trail htrail)
  · intro e he
    exact (buildUnder_eq_error he).1

/-- A set of grouping names that is empty counts as set, and hides the one above. -/
example :
    let c : RouteConfig :=
      { receiver := some "ops", groupBy := some (.ofList ["alertname"]),
        children := [{ groupBy := some .empty, groupWait := some (.ofSecs 5) }] }
    (c.trail? [0]).map effective = some
      { receiver := "ops", groupWait := .ofSecs 5, groupInterval := .ofSecs 300,
        repeatInterval := .ofSecs 14400 } := by
  decide

end AlertFlow.RouteConfig
