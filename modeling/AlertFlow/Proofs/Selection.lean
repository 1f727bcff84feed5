import AlertFlow.Route

/-!
What a routing tree selects, said by paths: a path is selected if every route on it is met, no
sibling before a route on it is met without continuing, and nothing below it is met. `select`
returns the routes at exactly these paths, in depth-first order.
-/
namespace AlertFlow.Route

/-! ## Places in a tree -/

/-- The route at a path below a route; children are counted from zero. -/
def at? : Route → List Nat → Option Route
  | r, [] => some r
  | r, i :: path => r.children[i]?.bind (at? · path)

@[simp] theorem at?_nil (r : Route) : r.at? [] = some r := rfl

theorem at?_cons (r : Route) (i : Nat) (path : List Nat) :
    r.at? (i :: path) = r.children[i]?.bind (at? · path) := rfl

theorem at?_singleton (r : Route) (i : Nat) : r.at? [i] = r.children[i]? := by
  cases h : r.children[i]? <;> simp [at?_cons, h]

theorem at?_append (r : Route) (p q : List Nat) :
    r.at? (p ++ q) = (r.at? p).bind (at? · q) := by
  induction p generalizing r with
  | nil => rfl
  | cons i p ih =>
    rw [List.cons_append, at?_cons, at?_cons, Option.bind_assoc]
    exact congrArg _ (funext ih)

theorem at?_cons_eq_some {r s : Route} {i : Nat} {path : List Nat} :
    r.at? (i :: path) = some s ↔ ∃ c, r.children[i]? = some c ∧ c.at? path = some s := by
  rw [at?_cons, Option.bind_eq_some_iff]

mutual

/-- A walk that starts at a path lists the walk from the root, moved to that path. -/
theorem walkFrom_eq (path : List Nat) : ∀ r : Route,
    walkFrom path r = (walk r).map fun e => (path ++ e.1, e.2)
  | ⟨_, _, _, _, children⟩ => by
    simp [walk, walkFrom, walkAmong_eq path 0 children]

theorem walkAmong_eq (path : List Nat) (i : Nat) : ∀ l : List Route,
    walkAmong path i l = (walkAmong [] i l).map fun e => (path ++ e.1, e.2)
  | [] => rfl
  | c :: rest => by
    simp only [walkAmong, walkFrom_eq (path ++ [i]) c, walkFrom_eq ([] ++ [i]) c,
      walkAmong_eq path (i + 1) rest, List.map_append, List.map_map]
    simp [Function.comp_def]

end

theorem walk_eq (r : Route) : r.walk = ([], r) :: walkAmong [] 0 r.children := by
  cases r
  rfl

theorem walkAmong_cons (i : Nat) (c : Route) (rest : List Route) :
    walkAmong [] i (c :: rest) =
      (c.walk.map fun e => (i :: e.1, e.2)) ++ walkAmong [] (i + 1) rest := by
  rw [walkAmong, walkFrom_eq]
  rfl

mutual

/-- What holds of a route whenever it holds of its children holds of every route. -/
theorem induct {P : Route → Prop} (step : ∀ r, (∀ c ∈ r.children, P c) → P r) : ∀ r, P r
  | ⟨_, _, _, _, children⟩ => step _ (inductAmong step children)

theorem inductAmong {P : Route → Prop} (step : ∀ r, (∀ c ∈ r.children, P c) → P r) :
    ∀ l : List Route, ∀ c ∈ l, P c
  | [] => List.forall_mem_nil P
  | c :: rest => List.forall_mem_cons.2 ⟨induct step c, inductAmong step rest⟩

end

/-- Among siblings numbered from `i`, a walk reaches what their own walks reach. -/
theorem mem_walkAmong {i : Nat} {l : List Route} {path : List Nat} {s : Route} :
    (path, s) ∈ walkAmong [] i l ↔
      ∃ k c rest, l[k]? = some c ∧ path = (i + k) :: rest ∧ (rest, s) ∈ c.walk := by
  induction l generalizing i with
  | nil => simp [walkAmong]
  | cons d l ih =>
    rw [walkAmong_cons, List.mem_append, ih]
    constructor
    · intro h
      rcases h with h | ⟨k, c, rest, hk, rfl, hm⟩
      · obtain ⟨e, he, heq⟩ := List.mem_map.1 h
        cases heq
        exact ⟨0, d, e.1, rfl, rfl, he⟩
      · exact ⟨k + 1, c, rest, hk, by rw [Nat.add_right_comm, Nat.add_assoc], hm⟩
    · intro h
      obtain ⟨k, c, rest, hk, rfl, hm⟩ := h
      cases k with
      | zero =>
        cases hk
        exact .inl (List.mem_map.2 ⟨_, hm, rfl⟩)
      | succ k => exact .inr ⟨k, c, rest, hk, by rw [Nat.add_right_comm, Nat.add_assoc], hm⟩

/-- A walk lists every route of the tree with its path. -/
theorem mem_walk {r s : Route} {path : List Nat} :
    (path, s) ∈ r.walk ↔ r.at? path = some s := by
  induction path generalizing r with
  | nil =>
    rw [walk_eq, List.mem_cons, mem_walkAmong]
    simp [eq_comm]
  | cons i path ih =>
    rw [walk_eq, List.mem_cons, mem_walkAmong, at?_cons_eq_some]
    constructor
    · intro h
      rcases h with h | ⟨k, c, rest, hk, hp, hm⟩
      · cases h
      · obtain ⟨rfl, rfl⟩ : i = 0 + k ∧ path = rest := by simpa using hp
        exact ⟨c, by simpa using hk, ih.1 hm⟩
    · intro h
      obtain ⟨c, hc, hs⟩ := h
      exact .inr ⟨i, c, path, hc, by simp, ih.2 hs⟩

theorem walkAmong_increasing {l : List Route}
    (h : ∀ c ∈ l, (c.walk.map Prod.fst).Pairwise (· < ·)) (i : Nat) :
    ((walkAmong [] i l).map Prod.fst).Pairwise (· < ·) := by
  induction l generalizing i with
  | nil => exact .nil
  | cons c l ih =>
    rw [walkAmong_cons, List.map_append, List.pairwise_append]
    refine ⟨?_, ih (fun d hd => h d (List.mem_cons_of_mem _ hd)) (i + 1), ?_⟩
    · have hc := h c List.mem_cons_self
      simp only [List.pairwise_map] at hc ⊢
      exact hc.imp fun hlt => List.cons_lt_cons_iff.2 (.inr ⟨rfl, hlt⟩)
    · -- a path under the first sibling comes before one under a later sibling
      intro p hp q hq
      simp only [List.mem_map] at hp hq
      obtain ⟨_, ⟨e, _, rfl⟩, rfl⟩ := hp
      obtain ⟨⟨q, s⟩, hq, rfl⟩ := hq
      obtain ⟨k, _, rest, _, rfl, _⟩ := mem_walkAmong.1 hq
      exact List.cons_lt_cons_iff.2 (.inl (by omega))

/-- A walk goes through the tree in depth-first order, parents first. -/
theorem walk_increasing (r : Route) : (r.walk.map Prod.fst).Pairwise (· < ·) := by
  induction r using induct with
  | step r ih =>
    rw [walk_eq, List.map_cons, List.pairwise_cons]
    refine ⟨?_, walkAmong_increasing ih 0⟩
    intro p hp
    obtain ⟨⟨q, s⟩, hq, rfl⟩ := List.mem_map.1 hp
    obtain ⟨k, _, rest, _, rfl, _⟩ := mem_walkAmong.1 hq
    exact List.nil_lt_cons _ _

/-! ## Selected paths -/

/-- All matchers of a route are present in a label set with equal values. -/
def MetBy (r : Route) (labels : LabelSet) : Prop :=
  ∀ p ∈ r.matchers.toList, labels.get? p.1 = some p.2

theorem accepts_iff {r : Route} {labels : LabelSet} : r.accepts labels = true ↔ r.MetBy labels := by
  simp [accepts, LabelSet.includes, MetBy, LabelSet.toList]

theorem accepts_eq_false_iff {r : Route} {labels : LabelSet} :
    r.accepts labels = false ↔ ¬ r.MetBy labels := by
  rw [← accepts_iff, Bool.not_eq_true]

instance (r : Route) (labels : LabelSet) : Decidable (r.MetBy labels) :=
  decidable_of_iff _ accepts_iff

/-- A path of a tree at whose end a label set comes to rest. -/
structure Selected (labels : LabelSet) (root : Route) (path : List Nat) : Prop where
  /-- Every route on the path, the root excepted, is met. -/
  met : ∀ q, q ≠ [] → q <+: path → ∃ s, root.at? q = some s ∧ s.MetBy labels
  /-- Wherever the path goes down into a child, the children before it let the search go on. -/
  unstopped : ∀ q i, q ++ [i] <+: path → ∀ r, root.at? q = some r →
    ∀ s ∈ r.children.take i, s.MetBy labels → s.continues = true
  /-- The path leads to a route of which no child is met. -/
  deepest : ∃ r, root.at? path = some r ∧ ∀ c ∈ r.children, ¬ c.MetBy labels

theorem selected_nil {labels : LabelSet} {root : Route} :
    Selected labels root [] ↔ ∀ c ∈ root.children, ¬ c.MetBy labels := by
  constructor
  · intro h
    obtain ⟨r, hr, hc⟩ := h.deepest
    cases hr
    exact hc
  · intro h
    refine ⟨fun q hq hp => absurd (List.prefix_nil.1 hp) hq, fun q i hp => ?_, root, rfl, h⟩
    exact absurd (List.prefix_nil.1 hp) (by simp)

/-- A path is selected if its first step is open and its rest is selected from there. -/
theorem selected_cons {labels : LabelSet} {root : Route} {i : Nat} {path : List Nat} :
    Selected labels root (i :: path) ↔ ∃ c, root.children[i]? = some c ∧ c.MetBy labels ∧
      (∀ s ∈ root.children.take i, s.MetBy labels → s.continues = true) ∧
      Selected labels c path := by
  constructor
  · intro h
    obtain ⟨c, hc, hmet⟩ := h.met [i] (by simp) ⟨path, rfl⟩
    rw [at?_singleton] at hc
    -- what is said of a prefix below `c` is what was said of that prefix behind `i`
    refine ⟨c, hc, hmet, h.unstopped [] i ⟨path, rfl⟩ root rfl, ?_, ?_, ?_⟩
    · intro q hq hp
      obtain ⟨s, hs, hm⟩ := h.met (i :: q) (by simp) (List.cons_prefix_cons.2 ⟨rfl, hp⟩)
      obtain ⟨c', hc', hs⟩ := at?_cons_eq_some.1 hs
      cases hc.symm.trans hc'
      exact ⟨s, hs, hm⟩
    · intro q k hp r hr
      refine h.unstopped (i :: q) k (List.cons_prefix_cons.2 ⟨rfl, hp⟩) r ?_
      exact at?_cons_eq_some.2 ⟨c, hc, hr⟩
    · obtain ⟨r, hr, hd⟩ := h.deepest
      obtain ⟨c', hc', hr⟩ := at?_cons_eq_some.1 hr
      cases hc.symm.trans hc'
      exact ⟨r, hr, hd⟩
  · intro h
    obtain ⟨c, hc, hmet, hopen, hs⟩ := h
    -- a prefix is the first step alone, or that step and a prefix of the rest
    refine ⟨fun q hq hp => ?_, fun q k hp r hr => ?_, ?_⟩
    · obtain ⟨k, q, rfl⟩ := List.exists_cons_of_ne_nil hq
      obtain ⟨rfl, hpre⟩ := List.cons_prefix_cons.1 hp
      cases q with
      | nil => exact ⟨c, by rwa [at?_singleton], hmet⟩
      | cons l q =>
        obtain ⟨s, hat, hm⟩ := hs.met (l :: q) (by simp) hpre
        exact ⟨s, at?_cons_eq_some.2 ⟨c, hc, hat⟩, hm⟩
    · cases q with
      | nil =>
        obtain ⟨rfl, -⟩ := List.cons_prefix_cons.1 hp
        cases hr
        exact hopen
      | cons l q =>
        obtain ⟨rfl, hpre⟩ := List.cons_prefix_cons.1 hp
        obtain ⟨c', hc', hr⟩ := at?_cons_eq_some.1 hr
        cases hc.symm.trans hc'
        exact hs.unstopped q k hpre r hr
    · obtain ⟨r, hr, hd⟩ := hs.deepest
      exact ⟨r, at?_cons_eq_some.2 ⟨c, hc, hr⟩, hd⟩

instance decidableSelected (labels : LabelSet) :
    (root : Route) → (path : List Nat) → Decidable (Selected labels root path)
  | _, [] => decidable_of_iff _ selected_nil.symm
  | root, i :: path =>
    match h : root.children[i]? with
    | none => .isFalse fun hs => by
      obtain ⟨c, hc, -⟩ := selected_cons.1 hs
      cases h.symm.trans hc
    | some c =>
      have := decidableSelected labels c path
      decidable_of_iff (c.MetBy labels ∧
          (∀ s ∈ root.children.take i, s.MetBy labels → s.continues = true) ∧
          Selected labels c path) <| by
        rw [selected_cons]
        simp [h]

/-! ## Selection -/

/-- The routes at the selected paths, in the order of a walk. -/
def picked (labels : LabelSet) (r : Route) : List (List Nat × Route) :=
  r.walk.filter fun e => Selected labels r e.1

theorem mem_picked {labels : LabelSet} {r s : Route} {path : List Nat} :
    (path, s) ∈ r.picked labels ↔ r.at? path = some s ∧ Selected labels r path := by
  simp [picked, mem_walk]

/-- Below a child that the search reaches, a path is selected as it is from that child. -/
theorem selected_below {labels : LabelSet} {r c : Route} {before after : List Route}
    (hr : r.children = before ++ c :: after)
    (hopen : ∀ s ∈ before, s.MetBy labels → s.continues = true) (path : List Nat) :
    Selected labels r (before.length :: path) ↔ c.MetBy labels ∧ Selected labels c path := by
  have htake : r.children.take before.length = before := by rw [hr, List.take_left]
  have hat : r.children[before.length]? = some c := by simp [hr]
  rw [selected_cons, htake, hat]
  simp only [Option.some.injEq, exists_eq_left', and_congr_right_iff]
  exact fun _ => ⟨And.right, fun h => ⟨hopen, h⟩⟩

/-- No path is selected that goes down behind a child that ends the search. -/
theorem not_selected_behind {labels : LabelSet} {r c : Route} {before after : List Route}
    (hr : r.children = before ++ c :: after) (hmet : c.MetBy labels) (hc : c.continues = false)
    {i : Nat} (hi : before.length < i) (path : List Nat) : ¬ Selected labels r (i :: path) := by
  intro h
  obtain ⟨d, -, -, hopen, -⟩ := selected_cons.1 h
  obtain ⟨k, rfl⟩ := Nat.exists_eq_add_of_lt hi
  have hmem : c ∈ r.children.take (before.length + k + 1) := by
    rw [hr, Nat.add_assoc, List.take_length_add_append]
    exact List.mem_append_right _ (by simp)
  exact absurd (hopen c hmem hmet) (by simp [hc])

/-- Among the children behind those that the search has passed, it selects the selected paths. -/
theorem selectAmong_eq {labels : LabelSet} {r : Route} {before after : List Route}
    (hr : r.children = before ++ after)
    (hopen : ∀ s ∈ before, s.MetBy labels → s.continues = true)
    (ih : ∀ c ∈ after, c.select labels = (c.picked labels).map Prod.snd) :
    selectAmong labels after =
      ((walkAmong [] before.length after).filter fun e => Selected labels r e.1).map Prod.snd := by
  induction after generalizing before with
  | nil => rfl
  | cons c after ihl =>
    have hnext : r.children = (before ++ [c]) ++ after := by simpa using hr
    have hrest (h : c.MetBy labels → c.continues = true) := ihl hnext
      (List.forall_mem_append.2 ⟨hopen, List.forall_mem_singleton.2 h⟩)
      fun d hd => ih d (List.mem_cons_of_mem _ hd)
    rw [List.length_append, List.length_singleton] at hrest
    rw [walkAmong_cons, List.filter_append, List.map_append, selectAmong, List.filter_map]
    simp only [Function.comp_def, selected_below hr hopen]
    cases hacc : c.accepts labels with
    | true =>
      have hmet := accepts_iff.1 hacc
      have hhead := ih c List.mem_cons_self
      simp only [picked] at hhead
      simp only [hmet, true_and, if_true, hhead, List.map_map, Function.comp_def]
      cases hcont : c.continues with
      | true =>
        rw [if_pos rfl, hrest fun _ => hcont]
      | false =>
        -- the search ends here, and no path behind `c` is selected
        have hbehind : (walkAmong [] (before.length + 1) after).filter
            (fun e => Selected labels r e.1) = [] := by
          refine List.filter_eq_nil_iff.2 fun e he => ?_
          obtain ⟨path, s⟩ := e
          obtain ⟨k, -, rest, -, rfl, -⟩ := mem_walkAmong.1 he
          simp [not_selected_behind hr hmet hcont (Nat.lt_add_right k (Nat.lt_succ_self _))]
        simp [hbehind]
    | false =>
      have hmet := accepts_eq_false_iff.1 hacc
      simp [hmet, hrest (absurd · hmet)]

theorem select_eq_picked (labels : LabelSet) (r : Route) :
    r.select labels = (r.picked labels).map Prod.snd := by
  induction r using induct with
  | step r ih =>
    have hchildren : r.children = [] ++ r.children := (List.nil_append _).symm
    have hbelow := selectAmong_eq hchildren (List.forall_mem_nil _) ih
    rw [select_eq, picked, walk_eq, List.filter_cons]
    -- the search comes back from the children with nothing exactly if none of them is met
    by_cases hnil : selectAmong labels r.children = []
    · have hdeep : Selected labels r [] := selected_nil.2 fun c hc =>
        accepts_eq_false_iff.1 ((selectAmong_eq_nil_iff labels r.children).1 hnil c hc)
      rw [hnil] at hbelow
      rw [if_pos (by rw [hnil]; rfl), if_pos (decide_eq_true hdeep), List.map_cons]
      exact congrArg _ hbelow
    · have hdeep : ¬ Selected labels r [] := fun h => hnil <|
        (selectAmong_eq_nil_iff labels r.children).2 fun c hc =>
          accepts_eq_false_iff.2 (selected_nil.1 h c hc)
      simpa [hnil, hdeep] using hbelow

/-- A selected path has no selected path below it. -/
theorem Selected.eq_of_above {labels : LabelSet} {root : Route} {p q : List Nat}
    (hp : Selected labels root p) (hq : Selected labels root q) (hpq : p <+: q) : p = q := by
  obtain ⟨rest, rfl⟩ := hpq
  cases rest with
  | nil => rw [List.append_nil]
  | cons i rest =>
    exfalso
    obtain ⟨r, hr, hdeep⟩ := hp.deepest
    obtain ⟨s, hs, hmet⟩ := hq.met (p ++ [i]) (by simp) ⟨rest, by simp⟩
    rw [at?_append, hr, Option.bind_some, at?_singleton] at hs
    exact hdeep s (List.mem_of_getElem? hs) hmet

/-- **What a label set is selected for**: the routes at the selected paths, in depth-first order
and each once. There is one at least, and none lies above another. -/
theorem select_selected_paths (labels : LabelSet) (root : Route) :
    ∃ paths : List (List Nat),
      paths.map root.at? = (root.select labels).map some ∧
      paths.Pairwise (· < ·) ∧
      (∀ path, path ∈ paths ↔ Selected labels root path) ∧
      paths ≠ [] ∧
      ∀ p ∈ paths, ∀ q ∈ paths, p <+: q → p = q := by
  have hmem : ∀ path, path ∈ (root.picked labels).map Prod.fst ↔ Selected labels root path := by
    intro path
    constructor
    · intro h
      obtain ⟨⟨path, s⟩, he, rfl⟩ := List.mem_map.1 h
      exact (mem_picked.1 he).2
    · intro h
      obtain ⟨r, hr, -⟩ := h.deepest
      exact List.mem_map.2 ⟨(path, r), mem_picked.2 ⟨hr, h⟩, rfl⟩
  refine ⟨(root.picked labels).map Prod.fst, ?_, ?_, hmem, ?_, ?_⟩
  · rw [select_eq_picked, List.map_map, List.map_map]
    exact List.map_congr_left fun e he => (mem_picked.1 he).1
  · exact (walk_increasing root).sublist (List.filter_sublist.map Prod.fst)
  · intro h
    apply select_ne_nil labels root
    rw [select_eq_picked, List.map_eq_nil_iff.1 h, List.map_nil]
  · intro p hp q hq
    exact ((hmem p).1 hp).eq_of_above ((hmem q).1 hq)

end AlertFlow.Route
