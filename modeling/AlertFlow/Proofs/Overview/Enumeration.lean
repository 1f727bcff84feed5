import AlertFlow.Proofs.Engine.Mirror
import Mathlib.Data.List.Sort

/-!
The overview and the order of the maps that it is built from. Maps that have the same groups, with
the same alerts, at the same places give the same entries in the same order; the blocks of an entry
are the same and stand in the order of their receivers. Blocks of one receiver are left in the order
in which the map lists their routes, so the overview as a whole is independent of it only where the
receivers tell the blocks of an entry apart.
-/
namespace AlertFlow

/-! ## Tables -/

namespace Table

variable {κ α β : Type} [DecidableEq κ]

/-- What a function gathers from the value under a key. -/
def gathered (t : Table κ α) (f : α → List β) (k : κ) : List β := ((t.get? k).map f).getD []

/-- What is gathered from all values is gathered key by key. -/
theorem flatMap_values (t : Table κ α) (f : α → List β) :
    t.values.flatMap f = (t.entries.map Prod.fst).flatMap (t.gathered f) := by
  rw [values, List.flatMap_map, List.flatMap_map]
  refine List.flatMap_congr fun e he => ?_
  have hget : t.get? e.1 = some e.2 := (mem_toList_iff t e.1 e.2).1 he
  rw [gathered, hget, Option.map_some, Option.getD_some]

theorem mem_keys_of_gathered {t : Table κ α} {f : α → List β} {k : κ} (h : t.gathered f k ≠ []) :
    k ∈ t.entries.map Prod.fst := by
  cases hget : t.get? k with
  | none =>
    rw [gathered, hget] at h
    exact absurd rfl h
  | some a => exact List.mem_map.2 ⟨(k, a), (mem_toList_iff t k a).2 hget, rfl⟩

omit [DecidableEq κ] in
theorem flatMap_filter_ne_nil (keys : List κ) (f : κ → List β) :
    (keys.filter fun k => !(f k).isEmpty).flatMap f = keys.flatMap f := by
  induction keys with
  | nil => rfl
  | cons k keys ih =>
    rw [List.filter_cons, List.flatMap_cons]
    cases hk : f k with
    | nil => exact ih
    | cons b rest =>
      rw [if_pos (by simp), List.flatMap_cons, ih, hk]

/-- Tables from which the same is gathered under each key have it all, in whichever order. -/
theorem perm_flatMap_values {t t' : Table κ α} {f : α → List β}
    (h : ∀ k, (t.gathered f k).Perm (t'.gathered f k)) :
    (t.values.flatMap f).Perm (t'.values.flatMap f) := by
  rw [flatMap_values, flatMap_values, ← flatMap_filter_ne_nil _ (t.gathered f),
    ← flatMap_filter_ne_nil _ (t'.gathered f)]
  refine List.Perm.flatMap ?_ fun k _ => h k
  rw [List.perm_ext_iff_of_nodup (t.nodup.filter _) (t'.nodup.filter _)]
  intro k
  have hnil : t.gathered f k = [] ↔ t'.gathered f k = [] := by
    constructor
    · intro hk
      exact List.nil_perm.1 (hk ▸ h k)
    · intro hk
      exact List.perm_nil.1 (hk ▸ h k)
  simp only [List.mem_filter, Bool.not_eq_true', List.isEmpty_eq_false_iff]
  constructor
  · intro hk
    exact ⟨mem_keys_of_gathered (mt hnil.2 hk.2), mt hnil.2 hk.2⟩
  · intro hk
    exact ⟨mem_keys_of_gathered (mt hnil.1 hk.2), mt hnil.1 hk.2⟩

end Table

/-! ## Maps of groups -/

/-- The same group, but for the order in which it lists its alerts. -/
def Group.Alike (g g' : Group) : Prop :=
  ∃ held, (∀ fp, held.get? fp = g.holdings.held.get? fp) ∧
    g' = { g with holdings := { g.holdings with held } }

/-- Maps that have the same groups at the same places, in whichever order they list them. -/
def GroupMap.Alike (m m' : GroupMap) : Prop :=
  ∀ id fp, Option.Rel Group.Alike (m.find? id fp) (m'.find? id fp)

namespace Group.Alike

variable {g g' : Group}

theorem refl (g : Group) : g.Alike g := ⟨g.holdings.held, fun _ => rfl, rfl⟩

theorem labels (h : g.Alike g') : g'.labels = g.labels := by
  obtain ⟨held, -, rfl⟩ := h
  rfl

theorem route (h : g.Alike g') : g'.route = g.route := by
  obtain ⟨held, -, rfl⟩ := h
  rfl

theorem perm_alerts (h : g.Alike g') : g.alerts.Perm g'.alerts := by
  obtain ⟨held, hheld, rfl⟩ := h
  show (g.holdings.held.values.map _).Perm (held.values.map _)
  rw [List.map_eq_flatMap, List.map_eq_flatMap]
  refine Table.perm_flatMap_values fun fp => ?_
  rw [Table.gathered, Table.gathered, hheld fp]

end Group.Alike

/-- What does not tell alike groups apart is the same at each place of alike maps. -/
theorem GroupMap.Alike.map_find? {γ : Type} {m m' : GroupMap} (h : m.Alike m') {f : Group → γ}
    (hf : ∀ g ∈ m.toGroups, ∀ g', g.Alike g' → f g = f g') (id : RouteId) (fp : Fingerprint) :
    (m.find? id fp).map f = (m'.find? id fp).map f := by
  have hsame := h id fp
  generalize m'.find? id fp = place at hsame ⊢
  cases hg : m.find? id fp with
  | none =>
    rw [hg] at hsame
    cases hsame
    rfl
  | some g =>
    rw [hg] at hsame
    cases hsame with
    | some halike =>
      rw [Option.map_some, Option.map_some, hf g (mem_toGroups.2 ⟨id, fp, hg⟩) _ halike]

/-- The order in which groups of different routes came in tells itself only by the order in which
they are listed. -/
theorem GroupMap.alike_place_comm (m : GroupMap) {g g' : Group} (h : g.route.id ≠ g'.route.id) :
    ((m.place g).place g').Alike ((m.place g').place g) := by
  have hsame : ∀ id fp,
      ((m.place g).place g').find? id fp = ((m.place g').place g).find? id fp := by
    intro id fp
    simp only [find?_place]
    by_cases hid : g.route.id = id ∧ g.fingerprint = fp
    · rw [if_pos hid, if_pos hid, if_neg fun hid' => h (hid.1.trans hid'.1.symm)]
    · rw [if_neg hid, if_neg hid]
  intro id fp
  rw [hsame id fp]
  cases ((m.place g').place g).find? id fp with
  | none => exact .none
  | some g => exact .some (.refl g)

namespace Overview

variable {marker : Marker} {now : Instant}

/-! ## What an overview sees of the groups -/

/-- What an overview sees of a group: its labels and its block. -/
def face (marker : Marker) (now : Instant) (g : Group) : LabelSet × Option OverviewBlock :=
  (g.labels, blockOf? marker now g)

theorem face_eq {g g' : Group} (h : g.Alike g') (hd : (g.alerts.map Alert.fingerprint).Nodup) :
    face marker now g = face marker now g' := by
  refine Prod.ext h.labels.symm ?_
  show block? marker g.route.options _ = block? marker g'.route.options _
  rw [h.route]
  refine block?_congr (h.perm_alerts.filter _) fun a ha b hb hlabels => ?_
  exact List.inj_on_of_nodup_map hd (List.mem_of_mem_filter ha) (List.mem_of_mem_filter hb)
    (congrArg LabelSet.fingerprint hlabels)

/-- Alike maps look the same, group by group, in whichever order. -/
theorem perm_faces {m m' : GroupMap} (h : m.Alike m')
    (hd : ∀ g ∈ m.toGroups, (g.alerts.map Alert.fingerprint).Nodup) :
    (m.toGroups.map (face marker now)).Perm (m'.toGroups.map (face marker now)) := by
  -- a route without groups is as good as one that the map does not have
  have hroute (m : GroupMap) (id : RouteId) :
      m.gathered (fun groups => groups.values.map (face marker now)) id =
        ((m.get? id).getD .empty).values.map (face marker now) := by
    rw [Table.gathered]
    cases m.get? id <;> rfl
  have hplace (m : GroupMap) (id : RouteId) (fp : Fingerprint) :
      ((m.get? id).getD .empty).get? fp = m.find? id fp := by
    rw [GroupMap.find?]
    cases m.get? id <;> rfl
  unfold GroupMap.toGroups
  rw [List.map_flatMap, List.map_flatMap]
  refine Table.perm_flatMap_values fun id => ?_
  rw [hroute, hroute, List.map_eq_flatMap, List.map_eq_flatMap]
  refine Table.perm_flatMap_values fun fp => ?_
  have hsame := h.map_find? (f := fun g => [face marker now g])
    (fun g hg g' halike => by rw [face_eq halike (hd g hg)]) id fp
  rw [Table.gathered, Table.gathered, hplace, hplace, hsame]

section Faces

variable {groups groups' : List Group}
  (hfaces : (groups.map (face marker now)).Perm (groups'.map (face marker now)))
include hfaces

theorem mem_labels_iff {labels : LabelSet} :
    labels ∈ groups.map (·.labels) ↔ labels ∈ groups'.map (·.labels) := by
  have hlabels := (hfaces.map Prod.fst).mem_iff (a := labels)
  rwa [List.map_map, List.map_map] at hlabels

/-- Entries under the same fingerprint have the same labels and, up to order, the same blocks. -/
theorem exists_entryAt?_of_faces (hu : LabelSet.Unambiguous (groups.map (·.labels)))
    {fp : Fingerprint} {x : OverviewGroup} (hx : entryAt? marker now groups fp = some x) :
    ∃ y, entryAt? marker now groups' fp = some y ∧ x.labels = y.labels ∧
      x.blocks.Perm y.blocks := by
  have hshown (groups : List Group) :
      (groups.filter (·.fingerprint = fp)).filterMap (blockOf? marker now) =
        ((groups.map (face marker now)).filter (·.1.fingerprint = fp)).filterMap Prod.snd := by
    rw [List.filter_map, List.filterMap_map]
    rfl
  obtain ⟨⟨g, hg, hlabels⟩, hblocks⟩ := of_entryAt?_eq_some hx
  obtain ⟨hmem, hfp⟩ := List.mem_filter.1 hg
  -- some group of the other list has the labels of the entry, so there is an entry for it
  obtain ⟨g', hmem', hlabels'⟩ :=
    List.mem_map.1 ((mem_labels_iff hfaces).1 (List.mem_map_of_mem hmem))
  have hfp' : g'.labels.fingerprint = fp := by
    rw [hlabels']
    exact of_decide_eq_true hfp
  obtain ⟨y, hy⟩ := exists_entryAt? (List.mem_filter.2 ⟨hmem', decide_eq_true hfp'⟩)
  obtain ⟨⟨h, hh, hsame⟩, hblocks'⟩ := of_entryAt?_eq_some hy
  refine ⟨y, hy, ?_, ?_⟩
  · have hin : y.labels ∈ groups.map (·.labels) :=
      (mem_labels_iff hfaces).2 (hsame ▸ List.mem_map_of_mem (List.mem_of_mem_filter hh))
    rw [← hlabels]
    refine hu _ (List.mem_map_of_mem hmem) _ hin ?_
    rw [fingerprint_of_entryAt? hy]
    exact of_decide_eq_true hfp
  · rw [hblocks, hblocks', hshown, hshown]
    exact (hfaces.filter _).filterMap _

/-- What one overview shows under some labels the other one shows, up to the order of blocks. -/
theorem exists_mem_build_of_faces (hu : LabelSet.Unambiguous (groups.map (·.labels)))
    {x : OverviewGroup} (hx : x ∈ build groups marker now) :
    ∃ y ∈ build groups' marker now, x.labels = y.labels ∧ x.blocks.Perm y.blocks := by
  obtain ⟨fp, x, hentry, hne, rfl⟩ := mem_build.1 hx
  obtain ⟨y, hentry', hlabels, hperm⟩ := exists_entryAt?_of_faces hfaces hu hentry
  refine ⟨sortBlocks y, mem_build.2 ⟨fp, y, hentry', ?_, rfl⟩, hlabels, ?_⟩
  · intro hnil
    exact hne (List.perm_nil.1 (hnil ▸ hperm))
  · exact (perm_sortBlocks x).trans (hperm.trans (perm_sortBlocks y).symm)

end Faces

/-- Lists in strictly increasing order of labels are equal if they have the same members. -/
theorem eq_of_increasing {α : Type} (labels : α → LabelSet) {l l' : List α}
    (h : l.Pairwise fun a b => compare (labels a) (labels b) = .lt)
    (h' : l'.Pairwise fun a b => compare (labels a) (labels b) = .lt)
    (hmem : ∀ a, a ∈ l ↔ a ∈ l') : l = l' := by
  have hirrefl : ∀ x : LabelSet, compare x x ≠ .lt := by
    intro x hx
    rw [Std.ReflOrd.compare_self] at hx
    cases hx
  have : Std.Irrefl fun a b : α => compare (labels a) (labels b) = .lt :=
    ⟨fun a => hirrefl (labels a)⟩
  have : Std.Antisymm fun a b : α => compare (labels a) (labels b) = .lt := by
    refine ⟨fun a b hab hba => ?_⟩
    exact absurd (Std.TransCmp.lt_trans hab hba) (hirrefl (labels a))
  exact h.eq_of_mem_iff h' hmem

section Blocks

variable {x y : OverviewGroup}
  (hx : x.blocks.Pairwise fun a b => a.options.receiver ≤ b.options.receiver)
  (hy : y.blocks.Pairwise fun a b => a.options.receiver ≤ b.options.receiver)
  (h : x.blocks.Perm y.blocks)
include hx hy h

theorem receivers_eq :
    x.blocks.map (·.options.receiver) = y.blocks.map (·.options.receiver) := by
  refine List.Perm.eq_of_pairwise ?_ (List.pairwise_map.2 hx) (List.pairwise_map.2 hy) (h.map _)
  exact fun _ _ _ _ hab hba => String.le_antisymm hab hba

/-- Receivers that tell the blocks of an entry apart leave one order for them. -/
theorem entry_eq (hlabels : x.labels = y.labels)
    (hd : ∀ b ∈ x.blocks, ∀ c ∈ x.blocks, b.options.receiver = c.options.receiver → b = c) :
    x = y := by
  have hblocks : x.blocks = y.blocks := by
    refine List.Perm.eq_of_pairwise (fun b c hb hc hbc hcb => ?_) hx hy h
    exact hd b hb c (h.symm.subset hc) (String.le_antisymm hbc hcb)
  cases x
  cases y
  cases hlabels
  cases hblocks
  rfl

end Blocks

/-- **How far the order of the maps shows.** Two maps have the same groups and alerts, in whichever
order; label sets of groups, and alerts within a group, are told apart by their fingerprints. Then
the overviews have the same entries in the same order, and an entry has the same blocks, with the
receivers in the same order. Where the blocks of an entry have different receivers, the overviews
are equal. -/
theorem build_of_alike {m m' : GroupMap} (marker : Marker) (now : Instant) (alike : m.Alike m')
    (groups : LabelSet.Unambiguous (m.toGroups.map (·.labels)))
    (alerts : ∀ g ∈ m.toGroups, (g.alerts.map Alert.fingerprint).Nodup) :
    let o := build m.toGroups marker now
    let o' := build m'.toGroups marker now
    o.map (·.labels) = o'.map (·.labels) ∧
      (∀ x ∈ o, ∀ y ∈ o', x.labels = y.labels → x.blocks.Perm y.blocks ∧
        x.blocks.map (·.options.receiver) = y.blocks.map (·.options.receiver)) ∧
      ((∀ x ∈ o, ∀ b ∈ x.blocks, ∀ c ∈ x.blocks,
        b.options.receiver = c.options.receiver → b = c) → o = o') := by
  intro o o'
  have hfaces : (m.toGroups.map (face marker now)).Perm (m'.toGroups.map (face marker now)) :=
    perm_faces alike alerts
  have groups' : LabelSet.Unambiguous (m'.toGroups.map (·.labels)) :=
    fun x hx y hy => groups x ((mem_labels_iff hfaces).2 hx) y ((mem_labels_iff hfaces).2 hy)
  have hleft : ∀ x ∈ o, ∃ y ∈ o', x.labels = y.labels ∧ x.blocks.Perm y.blocks :=
    fun x hx => exists_mem_build_of_faces hfaces groups hx
  have hright : ∀ y ∈ o', ∃ x ∈ o, y.labels = x.labels ∧ y.blocks.Perm x.blocks :=
    fun y hy => exists_mem_build_of_faces hfaces.symm groups' hy
  have hlabels : o.map (·.labels) = o'.map (·.labels) := by
    refine eq_of_increasing id (List.pairwise_map.2 (build_increasing marker now _))
      (List.pairwise_map.2 (build_increasing marker now _)) fun labels => ?_
    constructor
    · intro h
      obtain ⟨x, hx, rfl⟩ := List.mem_map.1 h
      obtain ⟨y, hy, hsame, -⟩ := hleft x hx
      exact hsame ▸ List.mem_map_of_mem hy
    · intro h
      obtain ⟨y, hy, rfl⟩ := List.mem_map.1 h
      obtain ⟨x, hx, hsame, -⟩ := hright y hy
      exact hsame ▸ List.mem_map_of_mem hx
  refine ⟨hlabels, fun x hx y hy hsame => ?_, fun hd => ?_⟩
  · obtain ⟨z, hz, hsame', hperm⟩ := hleft x hx
    obtain rfl : z = y := List.inj_on_of_nodup_map (nodup_labels_build marker now _) hz hy
      (hsame'.symm.trans hsame)
    exact ⟨hperm, receivers_eq (sorted_of_mem_build hx) (sorted_of_mem_build hy) hperm⟩
  · -- an entry of one overview is the one that the other has under the same labels
    refine eq_of_increasing (·.labels) (build_increasing marker now _)
      (build_increasing marker now _) fun x => ⟨fun hx => ?_, fun hx => ?_⟩
    · obtain ⟨y, hy, hsame, hperm⟩ := hleft x hx
      obtain rfl := entry_eq (sorted_of_mem_build hx) (sorted_of_mem_build hy) hperm hsame (hd x hx)
      exact hy
    · obtain ⟨y, hy, hsame, hperm⟩ := hright x hx
      obtain rfl := entry_eq (sorted_of_mem_build hy) (sorted_of_mem_build hx) hperm.symm
        hsame.symm (hd y hy)
      exact hy

/-- Receivers tell blocks apart if they tell apart the groups that are shown together. -/
theorem eq_of_receiver {groups : List Group}
    (hd : ∀ g ∈ groups, ∀ g' ∈ groups, g.fingerprint = g'.fingerprint →
      g.route.options.receiver = g'.route.options.receiver → g = g') :
    ∀ x ∈ build groups marker now, ∀ b ∈ x.blocks, ∀ c ∈ x.blocks,
      b.options.receiver = c.options.receiver → b = c := by
  have hoptions {g : Group} {b : OverviewBlock} (h : blockOf? marker now g = some b) :
      b.options = g.route.options := by
    unfold blockOf? block? at h
    split at h
    · cases h
    · cases h
      rfl
  intro x hx b hb c hc hreceiver
  obtain ⟨fp, y, hy, -, rfl⟩ := mem_build.1 hx
  have hblocks := (of_entryAt?_eq_some hy).2
  obtain ⟨g, hg, hgb⟩ := List.mem_filterMap.1 (hblocks ▸ (perm_sortBlocks y).subset hb)
  obtain ⟨g', hg', hgc⟩ := List.mem_filterMap.1 (hblocks ▸ (perm_sortBlocks y).subset hc)
  rw [hoptions hgb, hoptions hgc] at hreceiver
  obtain ⟨hmem, hfp⟩ := List.mem_filter.1 hg
  obtain ⟨hmem', hfp'⟩ := List.mem_filter.1 hg'
  obtain rfl := hd g hmem g' hmem'
    ((of_decide_eq_true hfp).trans (of_decide_eq_true hfp').symm) hreceiver
  exact Option.some.inj (hgb.symm.trans hgc)

/-- Blocks of one receiver stay in the order in which the groups are listed. -/
theorem mem_build_of_one_receiver {groups : List Group} {fp : Fingerprint} {x : OverviewGroup}
    {receiver : String} {n : Nat} (hx : entryAt? marker now groups fp = some x)
    (hone : x.blocks.map (·.options.receiver) = List.replicate (n + 1) receiver) :
    x ∈ build groups marker now := by
  have hreceiver : ∀ b ∈ x.blocks, b.options.receiver = receiver := by
    intro b hb
    have hmem : b.options.receiver ∈ x.blocks.map (·.options.receiver) := List.mem_map_of_mem hb
    rw [hone] at hmem
    exact List.eq_of_mem_replicate hmem
  have hsorted : x.blocks.Pairwise fun a b =>
      decide (a.options.receiver ≤ b.options.receiver) = true := by
    refine List.pairwise_of_forall_mem_list fun a ha b hb => ?_
    rw [hreceiver a ha, hreceiver b hb]
    exact decide_eq_true (String.le_refl receiver)
  have hsame : sortBlocks x = x := by
    rw [sortBlocks, List.mergeSort_of_pairwise hsorted]
  refine mem_build.2 ⟨fp, x, hx, ?_, hsame.symm⟩
  intro hnil
  rw [hnil] at hone
  cases hone

/-- A route that groups by one label. -/
def routeOf (id : Nat) (receiver : String) (wait : Nat) : Route where
  id := .ofNat id
  options :=
    { receiver, groupBy := .ofList ["a"], groupWait := .ofSecs wait,
      groupInterval := .ofSecs 300, repeatInterval := .ofSecs 14400 }
  matchers := .empty
  continues := true
  children := []

/-- A group of a route with one alert, which fires since the epoch. -/
def groupOf (r : Route) : Group where
  labels := .ofList [("a", "1")]
  route := r
  serial := 0
  holdings := Holdings.insert {} { labels := .ofList [("a", "1")], startsAt := ⟨0, 0⟩ }

/-- The groups of two routes, the second one behind the first. -/
def mapOf (r r' : Route) : GroupMap := (GroupMap.place .empty (groupOf r)).place (groupOf r')

/-- The groups of two routes to different receivers look the same in either order. -/
theorem different_receivers_in_order :
    let desk := routeOf 1 "desk" 30
    let ops := routeOf 2 "ops" 60
    (mapOf desk ops).Alike (mapOf ops desk) ∧
      build (mapOf desk ops).toGroups {} ⟨0, 0⟩ = build (mapOf ops desk).toGroups {} ⟨0, 0⟩ := by
  intro desk ops
  have halike : (mapOf desk ops).Alike (mapOf ops desk) :=
    GroupMap.alike_place_comm .empty (by decide)
  refine ⟨halike, ?_⟩
  obtain ⟨-, -, heq⟩ := build_of_alike {} ⟨0, 0⟩ halike (by decide +kernel) (by decide +kernel)
  refine heq (eq_of_receiver ?_)
  have hgroups : (mapOf desk ops).toGroups = [groupOf desk, groupOf ops] := rfl
  rw [hgroups]
  simp [groupOf, desk, ops, routeOf]

/-- Blocks of one receiver come in the order in which the map lists their routes. -/
theorem equal_receivers_out_of_order :
    ¬ ∀ (m m' : GroupMap) (marker : Marker) (now : Instant), m.Alike m' →
      LabelSet.Unambiguous (m.toGroups.map (·.labels)) →
      (∀ g ∈ m.toGroups, (g.alerts.map Alert.fingerprint).Nodup) →
      build m.toGroups marker now = build m'.toGroups marker now := by
  intro h
  let m := mapOf (routeOf 1 "ops" 30) (routeOf 2 "ops" 60)
  let m' := mapOf (routeOf 2 "ops" 60) (routeOf 1 "ops" 30)
  have halike : m.Alike m' := GroupMap.alike_place_comm .empty (by decide)
  have hbuild := h m m' {} ⟨0, 0⟩ halike (by decide +kernel) (by decide +kernel)
  let fp := (LabelSet.ofList [("a", "1")]).fingerprint
  let sketch (x : OverviewGroup) :=
    (x.labels, x.blocks.map (·.options.receiver), x.blocks.map (·.options.groupWait))
  have hleft : (entryAt? {} ⟨0, 0⟩ m.toGroups fp).map sketch =
      some (.ofList [("a", "1")], ["ops", "ops"], [.ofSecs 30, .ofSecs 60]) := by decide +kernel
  have hright : (entryAt? {} ⟨0, 0⟩ m'.toGroups fp).map sketch =
      some (.ofList [("a", "1")], ["ops", "ops"], [.ofSecs 60, .ofSecs 30]) := by decide +kernel
  obtain ⟨x, hx, hsketch⟩ := Option.map_eq_some_iff.1 hleft
  obtain ⟨y, hy, hsketch'⟩ := Option.map_eq_some_iff.1 hright
  simp only [sketch, Prod.mk.injEq] at hsketch hsketch'
  obtain ⟨hlabels, hreceivers, hwaits⟩ := hsketch
  obtain ⟨hlabels', hreceivers', hwaits'⟩ := hsketch'
  have hmem : x ∈ build m.toGroups {} ⟨0, 0⟩ :=
    mem_build_of_one_receiver (n := 1) hx hreceivers
  have hmem' : y ∈ build m'.toGroups {} ⟨0, 0⟩ :=
    mem_build_of_one_receiver (n := 1) hy hreceivers'
  -- the two maps have one entry each under these labels, so these would be the same
  rw [hbuild] at hmem
  obtain rfl : x = y := List.inj_on_of_nodup_map (nodup_labels_build {} ⟨0, 0⟩ _) hmem hmem'
    (hlabels.trans hlabels'.symm)
  have hequal := hwaits.symm.trans hwaits'
  revert hequal
  decide

end Overview

end AlertFlow
