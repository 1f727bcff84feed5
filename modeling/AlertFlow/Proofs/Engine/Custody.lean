import AlertFlow.Proofs.Engine.Receive

/-!
What the engine has in its custody, out of the alerts that it has read since its run began. Up to
some time, every group holds under a fingerprint the alert of that fingerprint that was filed there
last, as long as that alert fires; and it holds no other. Neither a delivery, however late it ends,
nor a sweep takes such an alert away.
-/
namespace AlertFlow

/-- The last of some alerts that has a fingerprint and is filed at a place. -/
def Route.lastFiled? (tree : Route) (read : List Alert) (id : RouteId) (fp f : Fingerprint) :
    Option Alert :=
  read.reverse.find? fun c => c.fingerprint = f ∧ Files (tree.select c.labels) c.labels id fp

theorem Route.lastFiled?_concat (tree : Route) (read : List Alert) (a : Alert) (id : RouteId)
    (fp f : Fingerprint) :
    tree.lastFiled? (read ++ [a]) id fp f =
      if Files (tree.select a.labels) a.labels id fp ∧ a.fingerprint = f then some a
      else tree.lastFiled? read id fp f := by
  unfold lastFiled?
  rw [List.reverse_concat, List.find?_cons]
  by_cases h : Files (tree.select a.labels) a.labels id fp ∧ a.fingerprint = f
  · rw [if_pos h, decide_eq_true h.symm]
  · rw [if_neg h, decide_eq_false fun h' => h h'.symm]

namespace Engine

/-- What the engine makes of the alerts read since its run began, up to a time. -/
structure Custody (t : Instant) (read : List Alert) (e : Engine) : Prop where
  keyed : e.groups.Keyed
  steady : ∀ id fp g, e.groups.find? id fp = some g → g.Steady t
  /-- Each group was made for an alert that was read, and for a route selected for it. -/
  made : ∀ id fp g, e.groups.find? id fp = some g →
    ∃ a ∈ read, g.route ∈ e.tree.select a.labels ∧ g.labels = g.route.grouping a.labels
  /-- What a sweep has found without alerts stays without alerts. -/
  found : ∀ s, e.sweep? = some s → ∀ id fp, (id, fp) ∈ s.found →
    ∀ g, e.groups.find? id fp = some g → g.isEmpty = true
  kept : ∀ id fp f a, e.tree.lastFiled? read id fp f = some a → a.isFiringAt t = true →
    e.heldAt? id fp f = some a
  held : ∀ id fp f a, e.heldAt? id fp f = some a → e.tree.lastFiled? read id fp f = some a

namespace Custody

variable {t : Instant} {read : List Alert} {e : Engine}

/-- A run begins with nothing. -/
theorem start (t : Instant) (empty : e.groups = Table.empty) (free : e.sweep? = none) :
    Custody t [] e where
  keyed := by simp [GroupMap.Keyed, empty]
  steady := by simp [empty]
  made := by simp [empty]
  found := by simp [free]
  kept := by simp [Route.lastFiled?]
  held := by simp [heldAt?, empty]

theorem endLoop (hc : Custody t read e) : Custody t read e.endLoop where
  keyed := hc.keyed
  steady := hc.steady
  made := hc.made
  found := by simp [sweep?, Engine.endLoop]
  kept := hc.kept
  held := hc.held

theorem receive (hc : Custody t read e) (free : e.sweep? = none) {m : Moment} {c : Bool}
    (a : Alert) :
    Custody t (read ++ [a]) ((e.tree.select a.labels).foldl (sort m c a) e) where
  keyed := keyed_foldl_sort _ hc.keyed
  steady := by
    refine forall_foldl_sort _ hc.keyed hc.steady ?_ ?_
    · intro e r _
      rw [newGroup_eq]
      exact (Group.Steady.new t _ _ _ _).change (Group.change_react _ _)
        (by simp [Group.Event.wall?])
    · intro g hg
      refine hg.change (e := .step .endTimer) (.inserted a rfl rfl rfl) ?_
      simp [Group.Event.wall?]
  made := by
    rw [tree_foldl_sort]
    refine forall_foldl_sort
      (P := fun g => ∃ b ∈ read ++ [a], g.route ∈ e.tree.select b.labels ∧
        g.labels = g.route.grouping b.labels) _ hc.keyed ?_ ?_ fun g hg => hg
    · intro id fp g hg
      obtain ⟨b, hb, hmade⟩ := hc.made id fp g hg
      exact ⟨b, List.mem_append_left _ hb, hmade⟩
    · intro e r hr
      exact ⟨a, by simp, by simpa using hr, by simp⟩
  found := by
    -- while a sweep is on the main loop reads nothing
    rw [sweep?, mainLoop_foldl_sort]
    rw [sweep?] at free
    simp [free]
  kept := by
    intro id fp f b hb hfiring
    rw [tree_foldl_sort, Route.lastFiled?_concat] at hb
    rw [heldAt?_foldl_sort _ hc.keyed]
    split at hb
    · next h => rwa [if_pos h]
    · next h =>
      rw [if_neg h]
      exact hc.kept id fp f b hb hfiring
  held := by
    intro id fp f b hb
    rw [heldAt?_foldl_sort _ hc.keyed] at hb
    rw [tree_foldl_sort, Route.lastFiled?_concat]
    split at hb
    · next h => rwa [if_pos h]
    · next h =>
      rw [if_neg h]
      exact hc.held id fp f b hb

theorem steady_movedBy {s : Step} (hwall : ∀ now, s.wall? = some now → now ≤ t) {g : Group}
    (hg : g.Steady t) : (e.movedBy s g).Steady t := by
  rcases movedBy_eq e s g with h | ⟨ev, h, -, hev⟩
  · rwa [h]
  · rw [h]
    exact hg.change (Group.change_react g ev) fun now hnow => hwall now (hev now hnow)

theorem held?_of_movedBy {s : Step} {g : Group} {f : Fingerprint} {a : Alert}
    (ha : (e.movedBy s g).held? f = some a) : g.held? f = some a := by
  rcases movedBy_eq e s g with h | ⟨ev, h, hnote, -⟩
  · rwa [h] at ha
  · rw [h] at ha
    exact Group.held?_of_change (Group.change_react g ev) hnote ha

theorem step (hc : Custody t read e) (s : Step) (hwall : ∀ now, s.wall? = some now → now ≤ t) :
    Custody t read (e.step s) where
  keyed := keyed_step hc.keyed s
  steady := by
    intro id fp g' hg'
    obtain ⟨g, hg, rfl⟩ := find?_of_step hg'
    exact steady_movedBy hwall (hc.steady id fp g hg)
  made := by
    intro id fp g' hg'
    obtain ⟨g, hg, rfl⟩ := find?_of_step hg'
    obtain ⟨hroute, hlabels⟩ := identity_movedBy e s g
    rw [hroute, hlabels, tree_step]
    exact hc.made id fp g hg
  found := by
    intro sw' hsw' id fp hfound g' hg'
    obtain ⟨g, hg, rfl⟩ := find?_of_step hg'
    have hempty : g.isEmpty = true := by
      rcases found_step hsw' hfound with ⟨sw, hsw, hmem⟩ | ⟨-, -, g₀, hg₀, hempty⟩
      · exact hc.found sw hsw id fp hmem g hg
      · cases hg.symm.trans hg₀
        exact hempty
    -- a step inserts nothing, so the group is still without alerts
    rw [Group.isEmpty_iff] at hempty ⊢
    intro f
    by_contra hne
    obtain ⟨a, ha⟩ := Option.ne_none_iff_exists'.1 hne
    have := held?_of_movedBy ha
    rw [hempty f] at this
    cases this
  kept := by
    intro id fp f a ha hfiring
    rw [tree_step] at ha
    obtain ⟨g, hg, hheld⟩ := heldAt?_eq_some.1 (hc.kept id fp f a ha hfiring)
    rw [heldAt?_eq_some, find?_step]
    by_cases hcl : e.clearedBy? s = some (id, fp)
    · -- only a group without alerts is cleared away
      exfalso
      obtain ⟨sw, hsw, hmem⟩ := found_of_clearedBy hcl
      have := Group.isEmpty_iff.1 (hc.found sw hsw id fp hmem g hg) f
      rw [hheld] at this
      cases this
    · rw [if_neg hcl, hg]
      refine ⟨_, rfl, ?_⟩
      -- whatever the group does, up to `t` it keeps an alert that fires at `t`
      rcases movedBy_eq e s g with h | ⟨ev, h, hnote, hev⟩
      · rwa [h]
      · rw [h]
        exact (hc.steady id fp g hg).keeps (Group.change_react g ev) hnote hheld hfiring
  held := by
    intro id fp f a ha
    obtain ⟨g', hg', ha⟩ := heldAt?_eq_some.1 ha
    obtain ⟨g, hg, rfl⟩ := find?_of_step hg'
    rw [tree_step]
    exact hc.held id fp f a (heldAt?_eq_some.2 ⟨g, hg, held?_of_movedBy ha⟩)

end Custody

end Engine

end AlertFlow
