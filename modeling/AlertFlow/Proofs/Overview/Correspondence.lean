import AlertFlow.Proofs.Group.Calls
import AlertFlow.Proofs.Group.Map
import AlertFlow.Proofs.Overview
import Mathlib.Data.List.Forall2

/-!
The blocks of an overview and the groups of the map. Every group with a firing alert has one block,
with what the group has and no more, and every block is that of such a group. The entries gather the
blocks by the fingerprints of the grouping labels; an entry that stays without blocks is left out.
-/
namespace AlertFlow.Overview

variable {marker : Marker} {now : Instant}

/-- Whether a block shows a group: the options of its route, and its firing alerts in the order of
their label sets, each with its own fingerprint and marks. -/
structure Shows (marker : Marker) (now : Instant) (g : Group) (b : OverviewBlock) : Prop where
  options : b.options = g.route.options
  alerts : (b.alerts.map (·.alert)).Perm (g.alerts.filter (·.isFiringAt now))
  sorted : b.alerts.Pairwise fun x y => x.alert.labels.le y.alert.labels = true
  fingerprint : ∀ x ∈ b.alerts, x.fingerprint = x.alert.fingerprint
  inhibited : ∀ x ∈ b.alerts, x.isInhibited = marker.isInhibited x.alert.fingerprint
  silence : ∀ x ∈ b.alerts, x.silence = (marker.silencedBy? x.alert.fingerprint).getD 0

/-- Whether a group has an alert that is firing at a time. -/
def isFiring (now : Instant) (g : Group) : Bool := g.alerts.any (·.isFiringAt now)

theorem isFiring_iff {g : Group} :
    isFiring now g = true ↔ g.alerts.filter (·.isFiringAt now) ≠ [] := by
  rw [isFiring, List.any_eq_true, ← List.isEmpty_eq_false_iff, ← Bool.not_eq_true,
    List.isEmpty_iff, List.filter_eq_nil_iff]
  push Not
  rfl

/-! ## Blocks -/

theorem map_alert_listed (marker : Marker) (alerts : List Alert) :
    ((listed marker alerts).map (·.alert)).Perm alerts := by
  have h := (List.mergeSort_perm (alerts.map (mark marker))
    fun a b => a.alert.labels.le b.alert.labels).map (·.alert)
  rwa [List.map_map, show (·.alert) ∘ mark marker = id from rfl, List.map_id] at h

theorem mem_listed {alerts : List Alert} {x : OverviewAlert} (hx : x ∈ listed marker alerts) :
    x = mark marker x.alert := by
  obtain ⟨a, -, rfl⟩ := List.mem_map.1 (List.mem_mergeSort.1 hx)
  rfl

/-- The block of a group shows it. -/
theorem shows_of_blockOf? {g : Group} {b : OverviewBlock} (h : blockOf? marker now g = some b) :
    Shows marker now g b := by
  unfold blockOf? block? at h
  split at h
  · cases h
  · cases h
    exact
      { options := rfl
        alerts := map_alert_listed marker _
        sorted := LabelSet.pairwise_mergeSort_le (fun x : OverviewAlert => x.alert.labels) _
        fingerprint := fun x hx => congrArg OverviewAlert.fingerprint (mem_listed hx)
        inhibited := fun x hx => congrArg OverviewAlert.isInhibited (mem_listed hx)
        silence := fun x hx => congrArg OverviewAlert.silence (mem_listed hx) }

/-- A group has a block exactly if one of its alerts is firing. -/
theorem isSome_blockOf? (marker : Marker) (now : Instant) (g : Group) :
    (blockOf? marker now g).isSome = isFiring now g := by
  rw [Bool.eq_iff_iff, isFiring_iff, blockOf?, block?]
  split
  · next hempty => simpa using hempty
  · next hfull => simpa using hfull

/-- A block has no alert twice if the group has none under two fingerprints. -/
theorem Shows.nodup {g : Group} {b : OverviewBlock} (h : Shows marker now g b)
    (hg : (g.alerts.map Alert.fingerprint).Nodup) : (b.alerts.map (·.fingerprint)).Nodup := by
  have hsame : b.alerts.map (·.fingerprint) = (b.alerts.map (·.alert)).map Alert.fingerprint := by
    rw [List.map_map]
    exact List.map_congr_left h.fingerprint
  rw [hsame, (h.alerts.map _).nodup_iff]
  exact hg.sublist (List.filter_sublist.map _)

/-- The blocks of some groups are those of the firing ones, one each. -/
theorem forall₂_shows (marker : Marker) (now : Instant) (groups : List Group) :
    List.Forall₂ (fun b g => Shows marker now g b) (groups.filterMap (blockOf? marker now))
      (groups.filter (isFiring now)) := by
  induction groups with
  | nil => exact .nil
  | cons g groups ih =>
    have hsome := isSome_blockOf? marker now g
    cases hb : blockOf? marker now g with
    | none =>
      rw [hb, Option.isSome_none] at hsome
      rwa [List.filterMap_cons_none hb, List.filter_cons_of_neg (by simp [← hsome])]
    | some b =>
      rw [hb, Option.isSome_some] at hsome
      rw [List.filterMap_cons_some hb, List.filter_cons_of_pos hsome.symm]
      exact .cons (shows_of_blockOf? hb) ih

/-! ## Entries -/

/-- The groups with a firing alert that share a fingerprint. -/
def firingAt (now : Instant) (groups : List Group) (fp : Fingerprint) : List Group :=
  (groups.filter (isFiring now)).filter (·.fingerprint = fp)

theorem mem_firingAt {groups : List Group} {fp : Fingerprint} {g : Group} :
    g ∈ firingAt now groups fp ↔
      (g ∈ groups ∧ isFiring now g = true) ∧ g.fingerprint = fp := by
  rw [firingAt, List.mem_filter, List.mem_filter, decide_eq_true_eq]

/-- The blocks that are shown are those of groups with a firing alert, so none is without alerts. -/
theorem alerts_ne_nil_of_mem_build {groups : List Group} {x : OverviewGroup} {b : OverviewBlock}
    (hx : x ∈ build groups marker now) (hb : b ∈ x.blocks) : b.alerts ≠ [] := by
  obtain ⟨fp, y, hy, -, rfl⟩ := mem_build.1 hx
  have hb : b ∈ y.blocks := (perm_sortBlocks y).subset hb
  rw [(of_entryAt?_eq_some hy).2] at hb
  obtain ⟨g, -, hblock⟩ := List.mem_filterMap.1 hb
  have hfiring : isFiring now g = true := by
    rw [← isSome_blockOf? marker, hblock, Option.isSome_some]
  have hperm := (shows_of_blockOf? hblock).alerts
  intro hnil
  rw [hnil] at hperm
  exact isFiring_iff.1 hfiring (List.nil_perm.1 hperm)

/-- **The blocks of an entry** are those of the firing groups of its fingerprint, one each. -/
theorem exists_shown {groups : List Group} {x : OverviewGroup} (hx : x ∈ build groups marker now) :
    ∃ shown, shown.Perm (firingAt now groups x.labels.fingerprint) ∧
      List.Forall₂ (fun b g => Shows marker now g b) x.blocks shown := by
  obtain ⟨fp, y, hy, -, rfl⟩ := mem_build.1 hx
  have hfp : y.labels.fingerprint = fp := fingerprint_of_entryAt? hy
  have hblocks := forall₂_shows marker now (groups.filter (·.fingerprint = fp))
  rw [← (of_entryAt?_eq_some hy).2, List.filter_comm] at hblocks
  -- the groups are put into the order into which the blocks were sorted
  obtain ⟨shown, hshown, hperm⟩ := List.perm_comp_forall₂ (perm_sortBlocks y) hblocks
  exact ⟨shown, hfp ▸ hperm, hshown⟩

/-- The firing groups of a fingerprint have an entry, if there are any. -/
theorem fingerprint_shown {groups : List Group} {g : Group}
    (hg : g ∈ groups.filter (isFiring now)) :
    g.fingerprint ∈ (build groups marker now).map (·.labels.fingerprint) := by
  obtain ⟨hmem, hfiring⟩ := List.mem_filter.1 hg
  have hg : g ∈ groups.filter (·.fingerprint = g.fingerprint) :=
    List.mem_filter.2 ⟨hmem, decide_eq_true rfl⟩
  obtain ⟨y, hy⟩ : ∃ y, entryAt? marker now groups g.fingerprint = some y := exists_entryAt? hg
  obtain ⟨b, hb⟩ := Option.isSome_iff_exists.1 ((isSome_blockOf? marker now g).trans hfiring)
  have hne : y.blocks ≠ [] := by
    rw [(of_entryAt?_eq_some hy).2]
    exact List.ne_nil_of_mem (List.mem_filterMap.2 ⟨g, hg, hb⟩)
  have hfp : y.labels.fingerprint = g.fingerprint := fingerprint_of_entryAt? hy
  exact List.mem_map.2 ⟨sortBlocks y, mem_build.2 ⟨_, y, hy, hne, rfl⟩, hfp⟩

/-- What is gathered under different keys is all that stands under one of them. -/
theorem perm_fibers {α κ : Type} [DecidableEq κ] (key : α → κ) (l : List α) {keys : List κ}
    (hkeys : keys.Nodup) :
    (keys.flatMap fun k => l.filter (key · = k)).Perm (l.filter (key · ∈ keys)) := by
  induction keys with
  | nil => simp
  | cons k keys ih =>
    obtain ⟨hk, hkeys⟩ := List.nodup_cons.1 hkeys
    have hsplit := List.filter_append_perm (key · = k) (l.filter (key · ∈ k :: keys))
    rw [List.filter_filter, List.filter_filter] at hsplit
    have hfirst : l.filter (fun a => decide (key a = k) && decide (key a ∈ k :: keys)) =
        l.filter (key · = k) := by
      refine List.filter_congr fun a _ => ?_
      grind
    have hrest : l.filter (fun a => !decide (key a = k) && decide (key a ∈ k :: keys)) =
        l.filter (key · ∈ keys) := by
      refine List.filter_congr fun a _ => ?_
      grind
    rw [hfirst, hrest] at hsplit
    exact ((ih hkeys).append_left _).trans hsplit

/-- **The overview loses and invents nothing.** The entries come in strictly increasing order of
their label sets, each under the labels of a group of the map. None is without blocks and no block
without alerts, and the blocks of an entry come in the order of their receivers. Each group with a
firing alert has its own block, which shows it, in the entry whose labels have its fingerprint, and
there are no other blocks; the blocks of two groups are in one entry exactly if the groups have the
same fingerprint. No alert is shown twice in the block of a group that went through a run. -/
theorem blocks_correspond (m : GroupMap) (marker : Marker) (now : Instant) :
    let o := build m.toGroups marker now
    o.Pairwise (fun x y => compare x.labels y.labels = .lt) ∧
    (∀ x ∈ o, x.blocks ≠ [] ∧ (∀ b ∈ x.blocks, b.alerts ≠ []) ∧
      x.blocks.Pairwise fun a b => a.options.receiver ≤ b.options.receiver) ∧
    (∃ placed : List (OverviewGroup × List Group), placed.map Prod.fst = o ∧
      (placed.flatMap Prod.snd).Perm (m.toGroups.filter (isFiring now)) ∧
      (∀ p ∈ placed, List.Forall₂ (fun b g => Shows marker now g b) p.1.blocks p.2) ∧
      (∀ p ∈ placed, (∃ g ∈ m.toGroups, g.labels = p.1.labels) ∧
        ∀ g ∈ p.2, g.fingerprint = p.1.labels.fingerprint) ∧
      ∀ p ∈ placed, ∀ q ∈ placed, ∀ g ∈ p.2, ∀ g' ∈ q.2,
        p.1 = q.1 ↔ g.fingerprint = g'.fingerprint) ∧
    ∀ g ∈ m.toGroups, ∀ h b, g.Lived h → Shows marker now g b →
      (b.alerts.map (·.fingerprint)).Nodup := by
  intro o
  have hchoice : ∀ x : OverviewGroup, ∃ shown, x ∈ o →
      shown.Perm (firingAt now m.toGroups x.labels.fingerprint) ∧
        List.Forall₂ (fun b g => Shows marker now g b) x.blocks shown := by
    intro x
    by_cases hx : x ∈ o
    · obtain ⟨shown, h⟩ := exists_shown hx
      exact ⟨shown, fun _ => h⟩
    · exact ⟨[], fun h => absurd h hx⟩
  choose shown hshown using hchoice
  have hfp : ∀ x ∈ o, ∀ g ∈ shown x, g.fingerprint = x.labels.fingerprint :=
    fun x hx g hg => (mem_firingAt.1 ((hshown x hx).1.subset hg)).2
  refine ⟨build_increasing marker now _, fun x hx => ⟨?_, ?_, sorted_of_mem_build hx⟩,
    ⟨o.map fun x => (x, shown x), ?_, ?_, ?_, ?_, ?_⟩, fun g _ h b hlived hb => ?_⟩
  · obtain ⟨fp, y, -, hne, rfl⟩ := mem_build.1 hx
    intro hnil
    exact hne (List.nil_perm.1 (hnil ▸ perm_sortBlocks y))
  · exact fun b hb => alerts_ne_nil_of_mem_build hx hb
  · rw [List.map_map]
    exact List.map_id o
  · have hall : ((o.map (·.labels.fingerprint)).flatMap (firingAt now m.toGroups)).Perm
        (m.toGroups.filter (isFiring now)) := by
      refine (perm_fibers Group.fingerprint _ (nodup_fingerprints_build marker now _)).trans
        (.of_eq ?_)
      exact List.filter_eq_self.2 fun g hg => decide_eq_true (fingerprint_shown hg)
    rw [List.flatMap_map]
    rw [List.flatMap_map] at hall
    exact (List.Perm.flatMap_left o fun x hx => (hshown x hx).1).trans hall
  · intro p hp
    obtain ⟨x, hx, rfl⟩ := List.mem_map.1 hp
    exact (hshown x hx).2
  · intro p hp
    obtain ⟨x, hx, rfl⟩ := List.mem_map.1 hp
    exact ⟨labels_of_mem_build hx, hfp x hx⟩
  · intro p hp q hq g hg g' hg'
    obtain ⟨x, hx, rfl⟩ := List.mem_map.1 hp
    obtain ⟨y, hy, rfl⟩ := List.mem_map.1 hq
    rw [hfp x hx g hg, hfp y hy g' hg']
    constructor
    · exact fun hsame => congrArg (fun x : OverviewGroup => x.labels.fingerprint) hsame
    · exact List.inj_on_of_nodup_map (nodup_fingerprints_build marker now _) hx hy
  · exact hb.nodup (Group.nodup_alerts hlived.ledger)

end AlertFlow.Overview
