import AlertFlow.Group.Map
import Mathlib.Data.List.Nodup
import Mathlib.Data.List.Perm.Basic

/-!
The map of groups seen at one route and one fingerprint, and as the list of its groups.
-/
namespace AlertFlow.GroupMap

/-! ## One place of the map -/

@[simp] theorem find?_empty (id : RouteId) (fp : Fingerprint) :
    find? Table.empty id fp = none := rfl

theorem find?_place (m : GroupMap) (g : Group) (id : RouteId) (fp : Fingerprint) :
    (m.place g).find? id fp =
      if g.route.id = id ∧ g.fingerprint = fp then some g else m.find? id fp := by
  unfold find? place
  rw [Table.get?_insert]
  by_cases hid : g.route.id = id
  · subst hid
    rw [if_pos rfl, Option.bind_some, Table.get?_insert]
    by_cases hfp : g.fingerprint = fp
    · rw [if_pos hfp, if_pos ⟨rfl, hfp⟩]
    · rw [if_neg hfp, if_neg fun h => hfp h.2]
      cases m.get? g.route.id <;> rfl
  · rw [if_neg hid, if_neg fun h => hid h.1]

theorem find?_mapGroups (m : GroupMap) (f : Group → Group) (id : RouteId) (fp : Fingerprint) :
    (m.mapGroups f).find? id fp = (m.find? id fp).map f := by
  unfold find? mapGroups
  rw [Table.get?_map]
  cases m.get? id with
  | none => rfl
  | some groups => exact Table.get?_map f groups fp

theorem find?_remove (m : GroupMap) (id id' : RouteId) (fp fp' : Fingerprint) :
    (m.remove id fp).find? id' fp' = if id = id' ∧ fp = fp' then none else m.find? id' fp' := by
  unfold find? remove
  rw [Table.get?_modify]
  by_cases hid : id = id'
  · subst hid
    rw [if_pos rfl]
    cases m.get? id with
    | none => simp
    | some groups =>
      rw [Option.map_some, Option.bind_some, Option.bind_some, Table.get?_erase]
      by_cases hfp : fp = fp'
      · rw [if_pos hfp, if_pos ⟨rfl, hfp⟩]
      · rw [if_neg hfp, if_neg fun h => hfp h.2]
  · rw [if_neg hid, if_neg fun h => hid h.1]

/-- Clearing away the routes without groups takes no group out. -/
theorem find?_withoutEmptyRoutes (m : GroupMap) (id : RouteId) (fp : Fingerprint) :
    m.withoutEmptyRoutes.find? id fp = m.find? id fp := by
  unfold find? withoutEmptyRoutes
  rw [Table.get?_filter]
  cases m.get? id with
  | none => rfl
  | some groups =>
    rw [Option.filter_some]
    split
    · rfl
    · next h => exact (Table.isEmpty_iff.1 (by simpa using h) fp).symm

theorem mem_emptyUnder {m : GroupMap} {id : RouteId} {fp : Fingerprint} :
    fp ∈ m.emptyUnder id ↔ ∃ g, m.find? id fp = some g ∧ g.isEmpty = true := by
  unfold emptyUnder find?
  cases m.get? id with
  | none => simp
  | some groups => simp [← Table.mem_toList_iff]

/-! ## Routes without groups -/

section Routes

variable {m : GroupMap} {id : RouteId} {groups : Table Fingerprint Group}

/-- A route into which a group was placed is not without groups. -/
theorem get?_place (h : (m.place g).get? id = some groups) (hempty : groups.isEmpty = true) :
    m.get? id = some groups := by
  rw [place, Table.get?_insert] at h
  split at h
  · cases h
    have := Table.isEmpty_iff.1 hempty g.fingerprint
    rw [Table.get?_insert_self] at this
    cases this
  · exact h

theorem get?_mapGroups {f : Group → Group} (h : (m.mapGroups f).get? id = some groups)
    (hempty : groups.isEmpty = true) :
    ∃ groups', m.get? id = some groups' ∧ groups'.isEmpty = true := by
  rw [mapGroups, Table.get?_map] at h
  obtain ⟨groups', hget, rfl⟩ := Option.map_eq_some_iff.1 h
  refine ⟨groups', hget, Table.isEmpty_iff.2 fun fp => ?_⟩
  have := Table.isEmpty_iff.1 hempty fp
  rw [Table.get?_map, Option.map_eq_none_iff] at this
  exact this

/-- Taking a group out may leave its route without groups, and no other. -/
theorem get?_remove {id' : RouteId} {fp : Fingerprint}
    (h : (m.remove id' fp).get? id = some groups) (hid : id' ≠ id) : m.get? id = some groups := by
  rwa [remove, Table.get?_modify, if_neg hid] at h

theorem get?_withoutEmptyRoutes (h : m.withoutEmptyRoutes.get? id = some groups) :
    groups.isEmpty = false := by
  rw [withoutEmptyRoutes, Table.get?_filter, Option.filter_eq_some_iff] at h
  simpa using h.2

end Routes

/-! ## All places of the map -/

/-- Every group stands under its own route and the fingerprint of its own labels. -/
def Keyed (m : GroupMap) : Prop :=
  ∀ id fp g, m.find? id fp = some g → g.route.id = id ∧ g.fingerprint = fp

theorem mem_toGroups {m : GroupMap} {g : Group} :
    g ∈ m.toGroups ↔ ∃ id fp, m.find? id fp = some g := by
  simp only [toGroups, List.mem_flatMap, Table.mem_values, find?, Option.bind_eq_some_iff]
  constructor
  · intro h
    obtain ⟨groups, ⟨id, hgroups⟩, fp, hg⟩ := h
    exact ⟨id, fp, groups, hgroups, hg⟩
  · intro h
    obtain ⟨id, fp, groups, hgroups, hg⟩ := h
    exact ⟨groups, ⟨id, hgroups⟩, fp, hg⟩

/-- No two groups of a keyed map agree in their routes and in their fingerprints. -/
theorem Keyed.nodup_toGroups {m : GroupMap} (h : m.Keyed) :
    (m.toGroups.map fun g => (g.route.id, g.fingerprint)).Nodup := by
  have hat : ∀ e ∈ m.entries, ∀ fp g, e.2.get? fp = some g →
      g.route.id = e.1 ∧ g.fingerprint = fp := by
    intro e he fp g hg
    refine h e.1 fp g ?_
    rw [find?, (Table.mem_toList_iff m e.1 e.2).1 he, Option.bind_some, hg]
  have hid : ∀ e ∈ m.entries, ∀ g ∈ e.2.values, g.route.id = e.1 := by
    intro e he g hg
    obtain ⟨fp, hg⟩ := Table.mem_values.1 hg
    exact (hat e he fp g hg).1
  have hfp : ∀ e ∈ m.entries, (e.2.values.map Group.fingerprint).Nodup :=
    fun e he => e.2.nodup_map_values _ fun fp g hg => (hat e he fp g hg).2
  have hkeys := m.nodup
  rw [toGroups, Table.values]
  -- by induction on the routes of the map: the groups of one differ in their fingerprints, and
  -- those of another one in the identity of their route
  generalize m.entries = l at hid hfp hkeys
  induction l with
  | nil => exact List.nodup_nil
  | cons e l ih =>
    rw [List.map_cons, List.nodup_cons] at hkeys
    rw [List.map_cons, List.flatMap_cons, List.map_append, List.nodup_append]
    refine ⟨?_, ih (fun e he => hid e (List.mem_cons_of_mem _ he))
      (fun e he => hfp e (List.mem_cons_of_mem _ he)) hkeys.2, ?_⟩
    · refine List.Nodup.of_map Prod.snd ?_
      rw [List.map_map]
      exact hfp e List.mem_cons_self
    · intro p hp q hq heq
      obtain ⟨g, hg, rfl⟩ := List.mem_map.1 hp
      obtain ⟨g', hg', rfl⟩ := List.mem_map.1 hq
      obtain ⟨_, hgroups', hg'⟩ := List.mem_flatMap.1 hg'
      obtain ⟨e', he', rfl⟩ := List.mem_map.1 hgroups'
      have hsame : e'.1 = e.1 := by
        rw [← hid e List.mem_cons_self g hg, ← hid e' (List.mem_cons_of_mem _ he') g' hg']
        exact (congrArg Prod.fst heq).symm
      exact hkeys.1 (List.mem_map.2 ⟨e', he', hsame⟩)

/-- The groups of a keyed map that have a fingerprint. -/
theorem Keyed.mem_filter_toGroups {m : GroupMap} (h : m.Keyed) {fp : Fingerprint} {g : Group} :
    g ∈ m.toGroups.filter (·.fingerprint = fp) ↔ m.find? g.route.id fp = some g := by
  rw [List.mem_filter, mem_toGroups, decide_eq_true_eq]
  constructor
  · intro hmem
    obtain ⟨⟨id, fp', hg⟩, rfl⟩ := hmem
    obtain ⟨rfl, rfl⟩ := h id fp' g hg
    exact hg
  · intro hg
    exact ⟨⟨_, _, hg⟩, (h _ _ g hg).2⟩

/-- Groups of a keyed map that share a fingerprint are of different routes. -/
theorem Keyed.nodup_filter_toGroups {m : GroupMap} (h : m.Keyed) (fp : Fingerprint) :
    ((m.toGroups.filter (·.fingerprint = fp)).map (·.route)).Nodup := by
  have hkeys := h.nodup_toGroups.sublist
    ((List.filter_sublist (p := fun g => decide (g.fingerprint = fp))).map _)
  refine List.Nodup.of_map (fun r : Route => (r.id, fp)) ?_
  rw [List.map_map]
  convert hkeys using 1
  refine List.map_congr_left fun g hg => ?_
  exact Prod.ext rfl (of_decide_eq_true (List.mem_filter.1 hg).2).symm

/-! ## The groups of a map but for one place -/

section Elsewhere

variable {m : GroupMap}

theorem Keyed.nodup (h : m.Keyed) : m.toGroups.Nodup := h.nodup_toGroups.of_map _

/-- The groups of a map that stand at other places. -/
def elsewhere (m : GroupMap) (id : RouteId) (fp : Fingerprint) : List Group :=
  m.toGroups.filter fun g => ¬ (g.route.id = id ∧ g.fingerprint = fp)

theorem Keyed.nodup_elsewhere (h : m.Keyed) (id : RouteId) (fp : Fingerprint) :
    (m.elsewhere id fp).Nodup := h.nodup.filter _

theorem Keyed.mem_elsewhere (h : m.Keyed) {id : RouteId} {fp : Fingerprint} {g : Group} :
    g ∈ m.elsewhere id fp ↔
      ∃ id' fp', m.find? id' fp' = some g ∧ ¬ (id' = id ∧ fp' = fp) := by
  rw [elsewhere, List.mem_filter, mem_toGroups, decide_eq_true_eq]
  constructor
  · intro hmem
    obtain ⟨⟨id', fp', hg⟩, hne⟩ := hmem
    obtain ⟨rfl, rfl⟩ := h id' fp' g hg
    exact ⟨_, _, hg, hne⟩
  · intro hmem
    obtain ⟨id', fp', hg, hne⟩ := hmem
    obtain ⟨rfl, rfl⟩ := h id' fp' g hg
    exact ⟨⟨_, _, hg⟩, hne⟩

theorem Keyed.perm_elsewhere (h : m.Keyed) (id : RouteId) (fp : Fingerprint) :
    m.toGroups.Perm ((m.find? id fp).toList ++ m.elsewhere id fp) := by
  rw [List.perm_ext_iff_of_nodup h.nodup]
  · intro g
    rw [List.mem_append, h.mem_elsewhere, mem_toGroups, Option.mem_toList]
    constructor
    · intro hg
      obtain ⟨id', fp', hg⟩ := hg
      by_cases hp : id' = id ∧ fp' = fp
      · obtain ⟨rfl, rfl⟩ := hp
        exact .inl hg
      · exact .inr ⟨id', fp', hg, hp⟩
    · intro hg
      rcases hg with hg | ⟨id', fp', hg, -⟩
      · exact ⟨id, fp, hg⟩
      · exact ⟨id', fp', hg⟩
  · refine List.Nodup.append ?_ (h.nodup_elsewhere id fp) ?_
    · cases m.find? id fp with
      | none => exact List.nodup_nil
      | some g => exact List.nodup_singleton g
    · intro g hg hg'
      obtain ⟨id', fp', hfound, hne⟩ := h.mem_elsewhere.1 hg'
      have := h id' fp' g hfound
      have := h id fp g (Option.mem_toList.1 hg)
      grind

theorem keyed_place (h : m.Keyed) (g : Group) : (m.place g).Keyed := by
  intro id fp g' hg'
  rw [find?_place] at hg'
  split at hg'
  · next hp =>
    cases hg'
    exact hp
  · exact h id fp g' hg'

theorem keyed_remove (h : m.Keyed) (id : RouteId) (fp : Fingerprint) : (m.remove id fp).Keyed := by
  intro id' fp' g hg
  rw [find?_remove] at hg
  split at hg
  · cases hg
  · exact h id' fp' g hg

theorem elsewhere_place (h : m.Keyed) (g : Group) :
    ((m.place g).elsewhere g.route.id g.fingerprint).Perm
      (m.elsewhere g.route.id g.fingerprint) := by
  rw [List.perm_ext_iff_of_nodup ((keyed_place h g).nodup_elsewhere _ _) (h.nodup_elsewhere _ _)]
  intro g'
  rw [(keyed_place h g).mem_elsewhere, h.mem_elsewhere]
  simp only [find?_place]
  grind

theorem Keyed.perm_place (h : m.Keyed) (g : Group) :
    (m.place g).toGroups.Perm (g :: m.elsewhere g.route.id g.fingerprint) := by
  have hp := (keyed_place h g).perm_elsewhere g.route.id g.fingerprint
  rw [find?_place, if_pos ⟨rfl, rfl⟩] at hp
  exact hp.trans ((elsewhere_place h g).cons g)

theorem Keyed.perm_remove (h : m.Keyed) (id : RouteId) (fp : Fingerprint) :
    (m.remove id fp).toGroups.Perm (m.elsewhere id fp) := by
  rw [List.perm_ext_iff_of_nodup (keyed_remove h id fp).nodup (h.nodup_elsewhere id fp)]
  intro g
  rw [h.mem_elsewhere, mem_toGroups]
  simp only [find?_remove]
  grind

theorem toGroups_mapGroups (m : GroupMap) (f : Group → Group) :
    (m.mapGroups f).toGroups = m.toGroups.map f := by
  simp [toGroups, mapGroups, Table.values, Table.map, List.flatMap_map, List.map_flatMap,
    Function.comp_def]

theorem toGroups_withoutEmptyRoutes (m : GroupMap) :
    m.withoutEmptyRoutes.toGroups = m.toGroups := by
  simp only [toGroups, withoutEmptyRoutes, Table.values, Table.filter, List.flatMap_map]
  induction m.entries with
  | nil => rfl
  | cons e l ih =>
    rw [List.filter_cons, List.flatMap_cons]
    split
    · rw [List.flatMap_cons, ih]
    · next hempty =>
      have : e.2.entries = [] := by simpa [Table.isEmpty] using hempty
      rw [ih, this]
      rfl

@[simp] theorem toGroups_empty : toGroups Table.empty = [] := rfl

end Elsewhere

end AlertFlow.GroupMap
