import AlertFlow.LabelSet
import Mathlib.Data.List.Sort

/-!
Label sets by their labels: a set is what it has under each name, and two restrictions to the same
names are equal exactly if the sets agree on these names, in presence and in value.
-/
namespace AlertFlow.LabelSet

variable {s t : LabelSet} {name value : String} {names : NameSet}

theorem eq_of_pairs (h : s.pairs = t.pairs) : s = t := by
  cases s
  cases t
  cases h
  rfl

theorem isEmpty_iff (s : LabelSet) : s.isEmpty = true ↔ s.toList = [] := List.isEmpty_iff

theorem lookup_eq_some {l : List (String × String)} (h : l.Pairwise fun a b => a.1 < b.1) :
    l.lookup name = some value ↔ (name, value) ∈ l := by
  induction l with
  | nil => simp
  | cons p l ih =>
    obtain ⟨n, v⟩ := p
    obtain ⟨hfirst, hrest⟩ := List.pairwise_cons.1 h
    by_cases hn : name = n
    · subst hn
      -- the names behind the first one are greater
      have hnot : (name, value) ∉ l := fun hmem => String.lt_irrefl name (hfirst _ hmem)
      simp [hnot, eq_comm]
    · have hne : (name == n) = false := by simpa using hn
      simp [List.lookup_cons, hne, hn, ih hrest]

theorem get?_eq_some : s.get? name = some value ↔ (name, value) ∈ s.pairs := lookup_eq_some s.sorted

/-- Sets that have the same under every name are equal. -/
theorem ext_get? (h : ∀ name, s.get? name = t.get? name) : s = t := by
  have : Std.Irrefl fun a b : String × String => a.1 < b.1 := ⟨fun a => String.lt_irrefl a.1⟩
  refine eq_of_pairs (s.sorted.eq_of_mem_iff t.sorted fun p => ?_)
  rw [← lookup_eq_some s.sorted, ← lookup_eq_some t.sorted]
  exact iff_of_eq (congrArg (· = some p.2) (h p.1))

theorem get?_restrict (s : LabelSet) (names : NameSet) (name : String) :
    (s.restrict names).get? name = if names.contains name then s.get? name else none := by
  refine Option.ext fun value => ?_
  rw [get?_eq_some, restrict, List.mem_filter]
  split
  · next h => simp [h, get?_eq_some]
  · next h => simp [h]

/-- Two sets restricted to some names are equal exactly if they agree on each of them. -/
theorem restrict_eq_iff :
    s.restrict names = t.restrict names ↔
      ∀ name, names.contains name = true → s.get? name = t.get? name := by
  constructor
  · intro h name hname
    have := congrArg (·.get? name) h
    simpa [get?_restrict, hname] using this
  · intro h
    refine ext_get? fun name => ?_
    rw [get?_restrict, get?_restrict]
    split
    · next hname => exact h name hname
    · rfl

/-! ## Sets from lists -/

/-- A label behind all others is put at the end. -/
theorem place_of_forall_lt {l : List (String × String)} (h : ∀ p ∈ l, p.1 < name) :
    place name value l = l ++ [(name, value)] := by
  induction l with
  | nil => rfl
  | cons p l ih =>
    obtain ⟨hp, hl⟩ := List.forall_mem_cons.1 h
    have hne : name ≠ p.1 := fun heq => String.lt_irrefl name (heq ▸ hp)
    rw [place, if_neg (String.lt_asymm hp), if_neg hne, ih hl]
    rfl

theorem pairs_foldl_insert {l : List (String × String)}
    (h : (s.pairs ++ l).Pairwise fun a b => a.1 < b.1) :
    (l.foldl (fun s p => s.insert p.1 p.2) s).pairs = s.pairs ++ l := by
  induction l generalizing s with
  | nil => rw [List.foldl_nil, List.append_nil]
  | cons p l ih =>
    have hplace : (s.insert p.1 p.2).pairs = s.pairs ++ [p] :=
      place_of_forall_lt fun q hq => (List.pairwise_append.1 h).2.2 q hq p List.mem_cons_self
    have happend : s.pairs ++ p :: l = (s.insert p.1 p.2).pairs ++ l := by
      rw [hplace, List.append_assoc, List.singleton_append]
    rw [List.foldl_cons, ih (happend ▸ h), happend]

/-- The labels of a set make that set. -/
theorem ofList_toList (s : LabelSet) : ofList s.toList = s := by
  refine eq_of_pairs ?_
  rw [ofList, pairs_foldl_insert]
  · rfl
  · exact s.sorted

end AlertFlow.LabelSet
