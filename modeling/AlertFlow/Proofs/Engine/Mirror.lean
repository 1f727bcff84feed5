import AlertFlow.Proofs.Alert.Store
import AlertFlow.Proofs.Engine.Custody
import AlertFlow.Proofs.Overview
import AlertFlow.Proofs.Selection
import Mathlib.Data.List.Find

/-!
How the overview of the engine mirrors the alert store. If the engine has custody of the alerts of
which the store keeps the last, its groups hold all stored alerts that fire; and as long as the
fingerprints of the label sets tell them apart, the overview shows these alerts, each under the
routes that are selected for it and the labels these group it by, and nothing else.
-/
namespace AlertFlow

/-- Fingerprints that tell label sets apart. -/
def LabelSet.Unambiguous (sets : List LabelSet) : Prop :=
  ∀ x ∈ sets, ∀ y ∈ sets, x.fingerprint = y.fingerprint → x = y

instance (sets : List LabelSet) : Decidable (LabelSet.Unambiguous sets) :=
  inferInstanceAs (Decidable (∀ x ∈ sets, ∀ y ∈ sets, x.fingerprint = y.fingerprint → x = y))

namespace Route

/-- The routes of a tree, parents first. -/
def routes (tree : Route) : List Route := tree.walk.map Prod.snd

/-- No two routes of a tree share an identity. -/
def DistinctIds (tree : Route) : Prop := (tree.routes.map (·.id)).Nodup

instance (tree : Route) : Decidable tree.DistinctIds :=
  inferInstanceAs (Decidable (List.Nodup _))

/-- Whether a tree selects the route of an identity for a label set. -/
def selects (tree : Route) (labels : LabelSet) (id : RouteId) : Bool :=
  (tree.select labels).any (·.id = id)

/-- The label sets by which alerts are grouped. -/
def groupings (tree : Route) (alerts : List Alert) : List LabelSet :=
  alerts.flatMap fun a => (tree.select a.labels).map (·.grouping a.labels)

variable {tree : Route} {read : List Alert} {id : RouteId} {fp f : Fingerprint} {a : Alert}

theorem mem_routes_of_mem_select {labels : LabelSet} {r : Route} (h : r ∈ tree.select labels) :
    r ∈ tree.routes := by
  rw [select_eq_picked] at h
  exact (List.filter_sublist.map Prod.snd).subset h

theorem DistinctIds.eq_of_id (hd : tree.DistinctIds) {r s : Route} (hr : r ∈ tree.routes)
    (hs : s ∈ tree.routes) (h : r.id = s.id) : r = s :=
  List.inj_on_of_nodup_map hd hr hs h

/-- The routes selected for a label set have distinct identities. -/
theorem DistinctIds.nodup_select (hd : tree.DistinctIds) (labels : LabelSet) :
    ((tree.select labels).map (·.id)).Nodup := by
  rw [select_eq_picked]
  exact ((List.filter_sublist.map Prod.snd).map _).nodup hd

theorem mem_groupings {r : Route} (ha : a ∈ read) (hr : r ∈ tree.select a.labels) :
    r.grouping a.labels ∈ tree.groupings read :=
  List.mem_flatMap.2 ⟨a, ha, List.mem_map.2 ⟨r, hr, rfl⟩⟩

theorem mem_of_lastFiled? (h : tree.lastFiled? read id fp f = some a) :
    a ∈ read ∧ a.fingerprint = f ∧ Files (tree.select a.labels) a.labels id fp := by
  unfold lastFiled? at h
  have hp := List.find?_some h
  obtain ⟨hf, hfiles⟩ := of_decide_eq_true hp
  exact ⟨List.mem_reverse.1 (List.mem_of_find?_eq_some h), hf, hfiles⟩

/-- The last alert of a fingerprint is the last of those that are filed where it is. -/
theorem lastFiled?_of_latest? (h : Alert.latest? read f = some a)
    (hfiles : Files (tree.select a.labels) a.labels id fp) :
    tree.lastFiled? read id fp f = some a := by
  obtain ⟨hf, before, after, hread, hlast⟩ := List.find?_eq_some_iff_append.1 h
  refine List.find?_eq_some_iff_append.2 ⟨?_, before, after, hread, ?_⟩
  · exact decide_eq_true ⟨of_decide_eq_true hf, hfiles⟩
  · intro b hb
    have := hlast b hb
    simp only [Bool.not_eq_true', decide_eq_false_iff_not] at this ⊢
    exact fun h => this h.1

/-- Where fingerprints tell the label sets of alerts apart, the last alert filed at a place under a
fingerprint is the last alert of that fingerprint. -/
theorem latest?_of_lastFiled? (hu : LabelSet.Unambiguous (read.map (·.labels)))
    (h : tree.lastFiled? read id fp f = some a) : Alert.latest? read f = some a := by
  obtain ⟨ha, hf, hfiles⟩ := mem_of_lastFiled? h
  rw [← h]
  refine List.find?_congr fun b hb => ?_
  rw [decide_eq_decide]
  constructor
  · intro hb'
    have hlabels : b.labels = a.labels :=
      hu _ (List.mem_map_of_mem (List.mem_reverse.1 hb)) _ (List.mem_map_of_mem ha)
        (hb'.trans hf.symm)
    exact ⟨hb', hlabels ▸ hfiles⟩
  · exact And.left

end Route

/-! ## What an overview has to show -/

namespace Overview

/-- The alerts of a store that fire and that a route has under grouping labels. -/
def shown (tree : Route) (stored : List Alert) (now : Instant) (labels : LabelSet) (r : Route) :
    List Alert :=
  stored.filter fun a =>
    a.isFiringAt now && tree.selects a.labels r.id && decide (r.grouping a.labels = labels)

/-- The block that a route has to show under grouping labels, if there is one. -/
def blockFor? (tree : Route) (stored : List Alert) (marker : Marker) (now : Instant)
    (labels : LabelSet) (r : Route) : Option OverviewBlock :=
  block? marker r.options (shown tree stored now labels r)

/-- The blocks that the routes of a tree have to show under grouping labels. -/
def expected (tree : Route) (stored : List Alert) (marker : Marker) (now : Instant)
    (labels : LabelSet) : List OverviewBlock :=
  tree.routes.filterMap (blockFor? tree stored marker now labels)

/-- An overview that shows the firing alerts of a store and nothing else. It is determined by the
store, the marks and the time, up to the order of blocks of the same receiver. -/
structure Mirrors (tree : Route) (stored : List Alert) (marker : Marker) (now : Instant)
    (o : Overview) : Prop where
  increasing : o.Pairwise fun x y => compare x.labels y.labels = .lt
  entries : ∀ labels, (∃ x ∈ o, x.labels = labels) ↔ expected tree stored marker now labels ≠ []
  blocks : ∀ x ∈ o, x.blocks.Perm (expected tree stored marker now x.labels)
  sorted : ∀ x ∈ o, x.blocks.Pairwise fun a b => a.options.receiver ≤ b.options.receiver

theorem isSome_block? {marker : Marker} {options : RouteOptions} {alerts : List Alert} :
    (block? marker options alerts).isSome = true ↔ ∃ a, a ∈ alerts := by
  cases alerts <;> simp [block?]

/-- A block does not depend on how the alerts are enumerated, if they have different labels. -/
theorem block?_congr {marker : Marker} {options : RouteOptions} {l l' : List Alert}
    (h : l.Perm l') (hd : ∀ a ∈ l, ∀ b ∈ l, a.labels = b.labels → a = b) :
    block? marker options l = block? marker options l' := by
  unfold block?
  rw [listed_congr h hd, h.isEmpty_eq]

/-- Lists that agree in what a function picks from them are picked from alike. -/
theorem perm_filterMap {α β : Type} {f : α → Option β} {l l' : List α} (hl : l.Nodup)
    (hl' : l'.Nodup) (h : ∀ a, (f a).isSome = true → (a ∈ l ↔ a ∈ l')) :
    (l.filterMap f).Perm (l'.filterMap f) := by
  have picked (l : List α) : l.filterMap f = (l.filter fun a => (f a).isSome).filterMap f := by
    rw [List.filterMap_filter]
    refine List.filterMap_congr fun a _ => ?_
    cases f a <;> rfl
  rw [picked l, picked l']
  refine List.Perm.filterMap f ?_
  rw [List.perm_ext_iff_of_nodup (hl.filter _) (hl'.filter _)]
  intro a
  simp only [List.mem_filter, and_congr_left_iff]
  exact h a

end Overview

/-! ## What the overview of the engine shows -/

namespace Engine.Custody

variable {t : Instant} {read : List Alert} {e : Engine} {store : AlertStore}

/-- **A stored alert that fires is held** by the group of every route selected for it. -/
theorem heldAt?_of_stored (hc : Custody t read e) (hs : store.Stocks read) {a : Alert}
    (ha : a ∈ store.alerts.values) (hfiring : a.isFiringAt t = true) {r : Route}
    (hr : r ∈ e.tree.select a.labels) :
    e.heldAt? r.id (r.grouping a.labels).fingerprint a.fingerprint = some a := by
  refine hc.kept _ _ _ a (Route.lastFiled?_of_latest? ?_ ⟨r, hr, rfl, rfl⟩) hfiring
  rw [← hs a.fingerprint]
  exact hs.mem_values.1 ha

theorem route_mem (hc : Custody t read e) {id : RouteId} {fp : Fingerprint} {g : Group}
    (hg : e.groups.find? id fp = some g) : g.route ∈ e.tree.routes := by
  obtain ⟨a, -, hr, -⟩ := hc.made id fp g hg
  exact Route.mem_routes_of_mem_select hr

theorem labels_mem (hc : Custody t read e) {id : RouteId} {fp : Fingerprint} {g : Group}
    (hg : e.groups.find? id fp = some g) : g.labels ∈ e.tree.groupings read := by
  obtain ⟨a, ha, hr, hlabels⟩ := hc.made id fp g hg
  exact hlabels ▸ Route.mem_groupings ha hr

/-- What a route has to show it shows in a group. -/
theorem group_of_shown (hc : Custody t read e) (hs : store.Stocks read)
    (hd : e.tree.DistinctIds) {r : Route} (hr : r ∈ e.tree.routes) {labels : LabelSet}
    (h : ∃ a, a ∈ Overview.shown e.tree store.alerts.values t labels r) :
    labels ∈ e.tree.groupings read ∧
      ∃ g, e.groups.find? r.id labels.fingerprint = some g ∧ g.route = r := by
  obtain ⟨a, ha⟩ := h
  simp only [Overview.shown, List.mem_filter, Bool.and_eq_true, decide_eq_true_eq, Route.selects,
    List.any_eq_true] at ha
  obtain ⟨ha, ⟨hfiring, s, hs', hid⟩, rfl⟩ := ha
  have hroute := hd.eq_of_id (Route.mem_routes_of_mem_select hs') hr hid
  subst hroute
  have hread : a ∈ read := by
    have hget := hs.mem_values.1 ha
    rw [hs a.fingerprint] at hget
    exact (Alert.latest?_eq_some hget).1
  refine ⟨Route.mem_groupings hread hs', ?_⟩
  obtain ⟨g, hg, -⟩ := heldAt?_eq_some.1 (hc.heldAt?_of_stored hs ha hfiring hs')
  exact ⟨g, hg, hd.eq_of_id (hc.route_mem hg) hr (hc.keyed _ _ g hg).1⟩

section Unambiguous

variable (hc : Custody t read e) (hs : store.Stocks read) (hd : e.tree.DistinctIds)
  (hlabels : LabelSet.Unambiguous (read.map (·.labels)))
  (hgroupings : LabelSet.Unambiguous (e.tree.groupings read))
include hc hs hd hlabels hgroupings

/-- A group holds, of the alerts that fire, those of the store that belong to it. -/
theorem mem_alerts_iff {id : RouteId} {fp : Fingerprint} {g : Group}
    (hg : e.groups.find? id fp = some g) {a : Alert} :
    a ∈ g.alerts.filter (·.isFiringAt t) ↔
      a ∈ Overview.shown e.tree store.alerts.values t g.labels g.route := by
  obtain ⟨rfl, rfl⟩ := hc.keyed id fp g hg
  simp only [Overview.shown, List.mem_filter, Bool.and_eq_true, decide_eq_true_eq, Route.selects,
    List.any_eq_true, Group.mem_alerts]
  constructor
  · intro h
    obtain ⟨⟨f, hf⟩, hfiring⟩ := h
    have hlast := hc.held _ _ f a (heldAt?_eq_some.2 ⟨g, hg, hf⟩)
    obtain ⟨ha, rfl, r, hr, hid, hfp⟩ := Route.mem_of_lastFiled? hlast
    have hroute := hd.eq_of_id (Route.mem_routes_of_mem_select hr) (hc.route_mem hg) hid
    subst hroute
    -- filed last at this place, the alert is the last of its fingerprint, which the store keeps
    refine ⟨hs.mem_values.2 ?_, ⟨hfiring, _, hr, rfl⟩, ?_⟩
    · rw [hs a.fingerprint]
      exact Route.latest?_of_lastFiled? hlabels hlast
    · exact hgroupings _ (Route.mem_groupings ha hr) _ (hc.labels_mem hg) hfp
  · intro h
    obtain ⟨ha, ⟨hfiring, r, hr, hid⟩, hgrouping⟩ := h
    have hroute := hd.eq_of_id (Route.mem_routes_of_mem_select hr) (hc.route_mem hg) hid
    subst hroute
    have hheld := hc.heldAt?_of_stored hs ha hfiring hr
    rw [hgrouping] at hheld
    obtain ⟨g', hg', hheld⟩ := heldAt?_eq_some.1 hheld
    cases hg.symm.trans hg'
    exact ⟨⟨_, hheld⟩, hfiring⟩

/-- The block of a group is the one expected of its route under its labels. -/
theorem blockOf?_eq {id : RouteId} {fp : Fingerprint} {g : Group}
    (hg : e.groups.find? id fp = some g) (marker : Marker) :
    Overview.blockOf? marker t g =
      Overview.blockFor? e.tree store.alerts.values marker t g.labels g.route := by
  have hgroup := (hc.steady id fp g hg).nodup_alerts
  refine Overview.block?_congr ?_ ?_
  · have hshown : (Overview.shown e.tree store.alerts.values t g.labels g.route).Nodup :=
      (List.Nodup.of_map _ hs.nodup_values).filter _
    rw [List.perm_ext_iff_of_nodup ((List.Nodup.of_map _ hgroup).filter _) hshown]
    exact fun a => mem_alerts_iff hc hs hd hlabels hgroupings hg
  · intro a ha b hb hab
    exact List.inj_on_of_nodup_map hgroup (List.mem_of_mem_filter ha) (List.mem_of_mem_filter hb)
      (congrArg LabelSet.fingerprint hab)

/-- Under labels that group some alert, the overview gathers the blocks that are expected. -/
theorem perm_blocks {labels : LabelSet} (hl : labels ∈ e.tree.groupings read) (marker : Marker) :
    ((e.groups.toGroups.filter (·.fingerprint = labels.fingerprint)).filterMap
      (Overview.blockOf? marker t)).Perm
        (Overview.expected e.tree store.alerts.values marker t labels) := by
  have hblocks : (e.groups.toGroups.filter (·.fingerprint = labels.fingerprint)).filterMap
        (Overview.blockOf? marker t) =
      ((e.groups.toGroups.filter (·.fingerprint = labels.fingerprint)).map (·.route)).filterMap
        (Overview.blockFor? e.tree store.alerts.values marker t labels) := by
    rw [List.filterMap_map]
    refine List.filterMap_congr fun g hg => ?_
    have hg := hc.keyed.mem_filter_toGroups.1 hg
    have hsame : g.labels = labels :=
      hgroupings _ (hc.labels_mem hg) _ hl (hc.keyed _ _ g hg).2
    rw [blockOf?_eq hc hs hd hlabels hgroupings hg marker, hsame]
    rfl
  rw [hblocks]
  -- the routes of the groups and those of the tree agree in all that have something to show
  refine Overview.perm_filterMap (hc.keyed.nodup_filter_toGroups _) (List.Nodup.of_map _ hd) ?_
  intro r hshows
  rw [List.mem_map]
  constructor
  · intro h
    obtain ⟨g, hg, rfl⟩ := h
    exact hc.route_mem (hc.keyed.mem_filter_toGroups.1 hg)
  · intro hr
    obtain ⟨-, g, hg, rfl⟩ := group_of_shown hc hs hd hr (Overview.isSome_block?.1 hshows)
    exact ⟨g, hc.keyed.mem_filter_toGroups.2 hg, rfl⟩

/-- An entry shows what is expected under its labels. -/
theorem of_entryAt? {marker : Marker} {fp : Fingerprint} {x : OverviewGroup}
    (hx : Overview.entryAt? marker t e.groups.toGroups fp = some x) :
    x.labels ∈ e.tree.groupings read ∧
      x.blocks.Perm (Overview.expected e.tree store.alerts.values marker t x.labels) := by
  obtain ⟨⟨g, hg, hsame⟩, hblocks⟩ := Overview.of_entryAt?_eq_some hx
  have hl : x.labels ∈ e.tree.groupings read :=
    hsame ▸ hc.labels_mem (hc.keyed.mem_filter_toGroups.1 hg)
  obtain rfl := Overview.fingerprint_of_entryAt? hx
  rw [hblocks]
  exact ⟨hl, perm_blocks hc hs hd hlabels hgroupings hl marker⟩

/-- **The overview of the engine mirrors the store.** -/
theorem mirrors (marker : Marker) :
    Overview.Mirrors e.tree store.alerts.values marker t (e.overview marker t) := by
  have hentry {fp x} := @of_entryAt? t read e store hc hs hd hlabels hgroupings marker fp x
  refine ⟨Overview.build_increasing marker t _, ?_, ?_, ?_⟩
  · intro labels
    constructor
    · intro h
      obtain ⟨y, hy, rfl⟩ := h
      obtain ⟨fp, x, hx, hne, rfl⟩ := Overview.mem_build.1 hy
      exact fun hnil => hne (List.perm_nil.1 (hnil ▸ (hentry hx).2))
    · intro hne
      -- a route that has a block to show has a group for it, and that stands in an entry
      obtain ⟨b, hb⟩ := List.exists_mem_of_ne_nil _ hne
      obtain ⟨r, hr, hshows⟩ := List.mem_filterMap.1 hb
      have hsome := Overview.isSome_block?.1 (Option.isSome_iff_exists.2 ⟨b, hshows⟩)
      obtain ⟨hl, g, hg, rfl⟩ := group_of_shown hc hs hd hr hsome
      obtain ⟨x, hx⟩ := Overview.exists_entryAt? (hc.keyed.mem_filter_toGroups.2 hg)
      obtain ⟨hl', hperm⟩ := hentry hx
      have hsame := hgroupings _ hl' _ hl (Overview.fingerprint_of_entryAt? hx)
      refine ⟨_, Overview.mem_build.2 ⟨_, x, hx, ?_, rfl⟩, hsame⟩
      intro hnil
      rw [hnil, hsame] at hperm
      exact hne (List.nil_perm.1 hperm)
  · intro y hy
    obtain ⟨fp, x, hx, -, rfl⟩ := Overview.mem_build.1 hy
    exact (Overview.perm_sortBlocks x).trans (hentry hx).2
  · exact fun y hy => Overview.sorted_of_mem_build hy

end Unambiguous

end Engine.Custody

end AlertFlow
