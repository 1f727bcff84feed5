import AlertFlow.LabelSet

/-!
The order of label sets: it is total, and sets that it does not tell apart are equal.
-/
namespace AlertFlow.LabelSet

open Std

instance : TransCmp comparePairs :=
  inferInstanceAs (TransCmp (compareLex (compareOn Prod.fst) (compareOn Prod.snd)))

instance : LawfulEqCmp comparePairs where
  eq_of_compare {a b} h := by
    have h : compareLex (compareOn Prod.fst) (compareOn Prod.snd) a b = .eq := h
    obtain ⟨hname, hvalue⟩ := compareLex_eq_eq.1 h
    exact Prod.ext (LawfulEqOrd.eq_of_compare hname) (LawfulEqOrd.eq_of_compare hvalue)

instance : TransOrd LabelSet :=
  have h : TransCmp (List.compareLex comparePairs) := inferInstance
  { eq_swap := h.eq_swap, isLE_trans := h.isLE_trans }

instance : LawfulEqOrd LabelSet where
  eq_of_compare {a b} h := by
    have hpairs : a.pairs = b.pairs := by
      have hlawful : LawfulEqCmp (List.compareLex comparePairs) := inferInstance
      exact hlawful.eq_of_compare h
    cases a
    cases b
    cases hpairs
    rfl

theorem le_trans {a b c : LabelSet} (hab : a.le b = true) (hbc : b.le c = true) :
    a.le c = true :=
  TransOrd.isLE_trans hab hbc

theorem le_total (a b : LabelSet) : (a.le b || b.le a) = true := by
  unfold le
  have hswap : compare b a = (compare a b).swap := OrientedOrd.eq_swap
  rw [hswap]
  cases compare a b <;> rfl

theorem le_antisymm {a b : LabelSet} (hab : a.le b = true) (hba : b.le a = true) : a = b :=
  LawfulEqOrd.eq_of_compare (OrientedCmp.isLE_antisymm hab hba)

theorem compare_eq_lt {a b : LabelSet} (hab : a.le b = true) (hne : a ≠ b) :
    compare a b = .lt := by
  unfold le at hab
  cases h : compare a b with
  | lt => rfl
  | eq => exact absurd (LawfulEqOrd.eq_of_compare h) hne
  | gt =>
    rw [h] at hab
    cases hab

/-- A list sorted by label sets is in their order. -/
theorem pairwise_mergeSort_le {α : Type} (labels : α → LabelSet) (l : List α) :
    (l.mergeSort fun a b => (labels a).le (labels b)).Pairwise
      fun a b => (labels a).le (labels b) = true :=
  @List.pairwise_mergeSort α (fun a b => (labels a).le (labels b)) (fun _ _ _ => le_trans)
    (fun _ _ => le_total _ _) l

end AlertFlow.LabelSet
