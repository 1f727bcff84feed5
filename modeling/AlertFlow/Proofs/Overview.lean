import AlertFlow.Overview
import AlertFlow.Proofs.LabelOrder
import Mathlib.Data.List.Induction
import Mathlib.Data.List.Nodup

/-!
What an overview shows, fingerprint by fingerprint: the labels of the first group that has it, and
the blocks of all groups that do. The entries come in strictly increasing order of labels and the
blocks of an entry in order of receivers, whatever the groups are.
-/
namespace AlertFlow

/-- The marks of a shown alert stand behind its own members, which cannot hide them. -/
theorem OverviewAlert.get?_toJson (e : OverviewAlert) :
    e.toJson.get? "fingerprint" = some (.string e.fingerprint.hex) := by
  unfold toJson Alert.toJson Json.record Json.get?
  by_cases hsilence : e.silence = 0 <;> simp [hsilence]

namespace Overview

variable {marker : Marker} {now : Instant}

/-! ## Alerts and blocks -/

/-- Alerts with their marks, in the order of their label sets. -/
def listed (marker : Marker) (alerts : List Alert) : List OverviewAlert :=
  (alerts.map (mark marker)).mergeSort fun a b => a.alert.labels.le b.alert.labels

theorem listed_eq_nil {alerts : List Alert} : listed marker alerts = [] ↔ alerts = [] := by
  rw [listed, ← List.length_eq_zero_iff, List.length_mergeSort, List.length_map,
    List.length_eq_zero_iff]

/-- Alerts with different labels are listed in one way, however they are enumerated. -/
theorem listed_congr {l l' : List Alert} (h : l.Perm l')
    (hd : ∀ a ∈ l, ∀ b ∈ l, a.labels = b.labels → a = b) : listed marker l = listed marker l' := by
  have sorted (l : List Alert) : (listed marker l).Pairwise fun a b =>
      a.alert.labels.le b.alert.labels = true :=
    LabelSet.pairwise_mergeSort_le (fun x : OverviewAlert => x.alert.labels) _
  have hperm (l : List Alert) : (listed marker l).Perm (l.map (mark marker)) :=
    List.mergeSort_perm _ _
  refine List.Perm.eq_of_pairwise ?_ (sorted l) (sorted l')
    ((hperm l).trans ((h.map _).trans (hperm l').symm))
  intro x y hx hy hxy hyx
  obtain ⟨a, ha, rfl⟩ := List.mem_map.1 ((hperm l).subset hx)
  obtain ⟨b, hb, rfl⟩ := List.mem_map.1 ((hperm l').subset hy)
  rw [hd a ha b (h.symm.subset hb) (LabelSet.le_antisymm hxy hyx)]

/-- The block that shows alerts of a route, if there are any. -/
def block? (marker : Marker) (options : RouteOptions) (alerts : List Alert) :
    Option OverviewBlock :=
  if alerts.isEmpty then none else some { options, alerts := listed marker alerts }

/-- The block that shows a group. -/
def blockOf? (marker : Marker) (now : Instant) (g : Group) : Option OverviewBlock :=
  block? marker g.route.options (g.alerts.filter (·.isFiringAt now))

theorem takeGroup_eq (seen : Table Fingerprint OverviewGroup) (g : Group) :
    takeGroup marker now seen g =
      let entry := (seen.get? g.fingerprint).getD { labels := g.labels, blocks := [] }
      seen.insert g.fingerprint
        { entry with blocks := entry.blocks ++ (blockOf? marker now g).toList } := by
  have hempty : (firing g marker now).isEmpty = (g.alerts.filter (·.isFiringAt now)).isEmpty := by
    rw [Bool.eq_iff_iff, List.isEmpty_iff, List.isEmpty_iff]
    exact listed_eq_nil
  simp only [takeGroup, blockOf?, block?, hempty]
  split <;> simp [firing, listed]

/-! ## Entries -/

/-- What an overview of groups shows under a fingerprint, before its blocks are sorted. -/
def entryAt? (marker : Marker) (now : Instant) (groups : List Group) (fp : Fingerprint) :
    Option OverviewGroup :=
  match groups.filter (·.fingerprint = fp) with
  | [] => none
  | g :: rest =>
    some { labels := g.labels, blocks := (g :: rest).filterMap (blockOf? marker now) }

theorem entryAt?_eq_some {groups : List Group} {fp : Fingerprint} {x : OverviewGroup} :
    entryAt? marker now groups fp = some x ↔
      ∃ g rest, groups.filter (·.fingerprint = fp) = g :: rest ∧
        x = { labels := g.labels, blocks := (g :: rest).filterMap (blockOf? marker now) } := by
  unfold entryAt?
  cases groups.filter (·.fingerprint = fp) with
  | nil => simp
  | cons g rest =>
    constructor
    · intro h
      cases h
      exact ⟨g, rest, rfl, rfl⟩
    · intro h
      obtain ⟨g', rest', h, rfl⟩ := h
      cases h
      rfl

/-- An entry shows all groups of its fingerprint under the labels of one of them. -/
theorem of_entryAt?_eq_some {groups : List Group} {fp : Fingerprint} {x : OverviewGroup}
    (h : entryAt? marker now groups fp = some x) :
    (∃ g ∈ groups.filter (·.fingerprint = fp), g.labels = x.labels) ∧
      x.blocks = (groups.filter (·.fingerprint = fp)).filterMap (blockOf? marker now) := by
  obtain ⟨g, rest, hg, rfl⟩ := entryAt?_eq_some.1 h
  exact ⟨⟨g, hg ▸ List.mem_cons_self, rfl⟩, by rw [hg]⟩

theorem fingerprint_of_entryAt? {groups : List Group} {fp : Fingerprint} {x : OverviewGroup}
    (h : entryAt? marker now groups fp = some x) : x.labels.fingerprint = fp := by
  obtain ⟨⟨g, hg, hlabels⟩, -⟩ := of_entryAt?_eq_some h
  rw [← hlabels]
  exact of_decide_eq_true (List.mem_filter.1 hg).2

/-- Every group is shown in an entry. -/
theorem exists_entryAt? {groups : List Group} {fp : Fingerprint} {g : Group}
    (hg : g ∈ groups.filter (·.fingerprint = fp)) :
    ∃ x, entryAt? marker now groups fp = some x := by
  unfold entryAt?
  cases h : groups.filter (·.fingerprint = fp) with
  | nil => simp [h] at hg
  | cons g₀ rest => exact ⟨_, rfl⟩

theorem get?_foldl_takeGroup (groups : List Group) (fp : Fingerprint) :
    (groups.foldl (takeGroup marker now) Table.empty).get? fp = entryAt? marker now groups fp := by
  induction groups using List.reverseRecOn with
  | nil => rfl
  | append_singleton groups g ih =>
    -- the group taken last adds its block to the entry of its fingerprint, behind those before it
    rw [List.foldl_append, List.foldl_cons, List.foldl_nil, takeGroup_eq, Table.get?_insert]
    by_cases hfp : g.fingerprint = fp
    · subst hfp
      rw [if_pos rfl, ih]
      unfold entryAt?
      rw [List.filter_append, List.filter_singleton, decide_eq_true rfl, cond_true]
      cases h : groups.filter (·.fingerprint = g.fingerprint) with
      | nil => cases hb : blockOf? marker now g <;> simp [hb]
      | cons g₀ rest =>
        have happend : (g₀ :: (rest ++ [g])).filterMap (blockOf? marker now) =
            (g₀ :: rest).filterMap (blockOf? marker now) ++ (blockOf? marker now g).toList := by
          rw [← List.cons_append, List.filterMap_append]
          cases hb : blockOf? marker now g <;> simp [hb]
        simp [happend]
    · rw [if_neg hfp, ih]
      unfold entryAt?
      rw [List.filter_append, List.filter_singleton, decide_eq_false hfp, cond_false,
        List.append_nil]

theorem mem_build {groups : List Group} {x : OverviewGroup} :
    x ∈ build groups marker now ↔
      ∃ fp y, entryAt? marker now groups fp = some y ∧ y.blocks ≠ [] ∧ x = sortBlocks y := by
  simp only [build, List.mem_mergeSort, List.mem_map, List.mem_filter, Table.mem_values,
    get?_foldl_takeGroup]
  constructor
  · intro h
    obtain ⟨y, ⟨⟨fp, hy⟩, hne⟩, rfl⟩ := h
    exact ⟨fp, y, hy, by simpa using hne, rfl⟩
  · intro h
    obtain ⟨fp, y, hy, hne, rfl⟩ := h
    exact ⟨y, ⟨⟨fp, hy⟩, by simpa using hne⟩, rfl⟩

/-- An entry stands under the labels of some group. -/
theorem labels_of_mem_build {groups : List Group} {x : OverviewGroup}
    (hx : x ∈ build groups marker now) : ∃ g ∈ groups, g.labels = x.labels := by
  obtain ⟨fp, y, hy, -, rfl⟩ := mem_build.1 hx
  obtain ⟨⟨g, hg, hlabels⟩, -⟩ := of_entryAt?_eq_some hy
  exact ⟨g, List.mem_of_mem_filter hg, hlabels⟩

/-- An alert that is shown is one of those of a group. -/
theorem alert_of_mem_build {groups : List Group} {x : OverviewGroup} {b : OverviewBlock}
    {shown : OverviewAlert} (hx : x ∈ build groups marker now) (hb : b ∈ x.blocks)
    (ha : shown ∈ b.alerts) : ∃ g ∈ groups, ∃ a ∈ g.alerts, shown = mark marker a := by
  obtain ⟨fp, y, hy, -, rfl⟩ := mem_build.1 hx
  have hb : b ∈ y.blocks := List.mem_mergeSort.1 hb
  rw [(of_entryAt?_eq_some hy).2] at hb
  obtain ⟨g, hg, hblock⟩ := List.mem_filterMap.1 hb
  unfold blockOf? block? at hblock
  split at hblock
  · cases hblock
  · cases hblock
    obtain ⟨a, hmem, rfl⟩ := List.mem_map.1 (List.mem_mergeSort.1 ha)
    exact ⟨g, List.mem_of_mem_filter hg, a, List.mem_of_mem_filter hmem, rfl⟩

/-- Every firing alert of a group is shown. -/
theorem exists_mem_build {groups : List Group} {g : Group} (hg : g ∈ groups) {a : Alert}
    (ha : a ∈ g.alerts) (hfiring : a.isFiringAt now = true) :
    ∃ x ∈ build groups marker now, ∃ b ∈ x.blocks, mark marker a ∈ b.alerts := by
  have hmem : a ∈ g.alerts.filter (·.isFiringAt now) := List.mem_filter.2 ⟨ha, hfiring⟩
  have hgroup : g ∈ groups.filter (·.fingerprint = g.fingerprint) :=
    List.mem_filter.2 ⟨hg, decide_eq_true rfl⟩
  obtain ⟨y, hy⟩ : ∃ y, entryAt? marker now groups g.fingerprint = some y :=
    exists_entryAt? hgroup
  obtain ⟨b, hblock, hshown⟩ : ∃ b, blockOf? marker now g = some b ∧ mark marker a ∈ b.alerts := by
    refine ⟨_, if_neg ?_, List.mem_mergeSort.2 (List.mem_map_of_mem hmem)⟩
    simpa using List.ne_nil_of_mem hmem
  have hb : b ∈ y.blocks := by
    rw [(of_entryAt?_eq_some hy).2]
    exact List.mem_filterMap.2 ⟨g, hgroup, hblock⟩
  exact ⟨sortBlocks y, mem_build.2 ⟨_, y, hy, List.ne_nil_of_mem hb, rfl⟩, b,
    List.mem_mergeSort.2 hb, hshown⟩

/-- Different entries have different fingerprints. -/
theorem nodup_fingerprints_build (marker : Marker) (now : Instant) (groups : List Group) :
    ((build groups marker now).map (·.labels.fingerprint)).Nodup := by
  have hseen : ((groups.foldl (takeGroup marker now) Table.empty).values.map
      fun x => x.labels.fingerprint).Nodup := by
    refine Table.nodup_map_values _ _ fun fp x hx => ?_
    rw [get?_foldl_takeGroup] at hx
    exact fingerprint_of_entryAt? hx
  unfold build
  rw [((List.mergeSort_perm _ _).map _).nodup_iff, List.map_map]
  exact hseen.sublist (List.filter_sublist.map _)

theorem nodup_labels_build (marker : Marker) (now : Instant) (groups : List Group) :
    ((build groups marker now).map (·.labels)).Nodup := by
  refine List.Nodup.of_map LabelSet.fingerprint ?_
  rw [List.map_map]
  exact nodup_fingerprints_build marker now groups

/-- The entries come in strictly increasing order of their labels. -/
theorem build_increasing (marker : Marker) (now : Instant) (groups : List Group) :
    (build groups marker now).Pairwise fun x y => compare x.labels y.labels = .lt := by
  have hsorted : (build groups marker now).Pairwise fun x y => x.labels.le y.labels = true :=
    LabelSet.pairwise_mergeSort_le (fun x : OverviewGroup => x.labels) _
  have hne := List.pairwise_map.1 (nodup_labels_build marker now groups)
  exact (hsorted.and hne).imp fun h => LabelSet.compare_eq_lt h.1 h.2

@[simp] theorem labels_sortBlocks (x : OverviewGroup) : (sortBlocks x).labels = x.labels := rfl

theorem perm_sortBlocks (x : OverviewGroup) : (sortBlocks x).blocks.Perm x.blocks :=
  List.mergeSort_perm _ _

/-- The blocks of an entry come in the order of their receivers. -/
theorem sorted_sortBlocks (x : OverviewGroup) :
    (sortBlocks x).blocks.Pairwise fun a b => a.options.receiver ≤ b.options.receiver := by
  have := @List.pairwise_mergeSort OverviewBlock
    (fun a b => decide (a.options.receiver ≤ b.options.receiver))
    (fun _ _ _ => by simpa using String.le_trans)
    (fun _ _ => by simpa using String.le_total _ _) x.blocks
  exact this.imp of_decide_eq_true

theorem sorted_of_mem_build {groups : List Group} {x : OverviewGroup}
    (hx : x ∈ build groups marker now) :
    x.blocks.Pairwise fun a b => a.options.receiver ≤ b.options.receiver := by
  obtain ⟨fp, y, -, -, rfl⟩ := mem_build.1 hx
  exact sorted_sortBlocks y

end Overview

end AlertFlow
