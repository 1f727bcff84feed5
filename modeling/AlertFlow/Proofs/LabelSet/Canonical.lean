import AlertFlow.Fingerprint
import AlertFlow.Json.Writer
import AlertFlow.Proofs.LabelOrder
import AlertFlow.Proofs.LabelSet
import AlertFlow.Proofs.Text.Utf8
import Mathlib.Data.List.Induction

/-!
Label sets are canonical and in a total order. A set made from a list has under each name the last
value that the list gives it, so it does not matter in which order labels come in, nor how often.
Sets compare as their lists of labels do, with texts compared by their bytes; and one restriction
after another keeps the labels that both keep, as they are.
-/
namespace AlertFlow

namespace NameSet

/-- The names that two sets have in common. -/
def inter (s t : NameSet) : NameSet :=
  ⟨s.names.filter fun n => t.contains n, s.sorted.sublist List.filter_sublist⟩

theorem contains_inter (s t : NameSet) (n : String) :
    (s.inter t).contains n = (s.contains n && t.contains n) := by
  rw [Bool.eq_iff_iff]
  simp [inter, contains]

end NameSet

namespace LabelSet

/-! ## Sets from lists of labels -/

/-- The last value that a list of labels gives to a name. -/
def last? (l : List (String × String)) (name : String) : Option String := l.reverse.lookup name

theorem last?_concat (l : List (String × String)) (p : String × String) (name : String) :
    last? (l ++ [p]) name = if name = p.1 then some p.2 else last? l name := by
  rw [last?, List.reverse_concat, List.lookup_cons]
  by_cases h : name = p.1
  · rw [if_pos h, beq_iff_eq.2 h]
  · rw [if_neg h, beq_false_of_ne h]
    rfl

theorem ofList_concat (l : List (String × String)) (p : String × String) :
    ofList (l ++ [p]) = (ofList l).insert p.1 p.2 := by
  rw [ofList, List.foldl_concat]
  rfl

/-- A set made from a list has the last value of each name. -/
theorem get?_ofList (l : List (String × String)) (name : String) :
    (ofList l).get? name = last? l name := by
  induction l using List.reverseRecOn with
  | nil => rfl
  | append_singleton l p ih => rw [ofList_concat, get?_insert, last?_concat, ih]

/-- Lists make the same set exactly if they give each name the same last value. -/
theorem ofList_eq_iff {l l' : List (String × String)} :
    ofList l = ofList l' ↔ ∀ name, last? l name = last? l' name := by
  constructor
  · intro h name
    rw [← get?_ofList, h, get?_ofList]
  · intro h
    refine ext_get? fun name => ?_
    rw [get?_ofList, get?_ofList, h]

theorem mem_ofList {l : List (String × String)} {name value : String} :
    (name, value) ∈ (ofList l).toList ↔ last? l name = some value := by
  rw [← get?_ofList, get?_eq_some]
  rfl

/-! ## Restrictions -/

/-- One restriction after another is the restriction to the names in common. -/
theorem restrict_restrict (s : LabelSet) (a b : NameSet) :
    (s.restrict a).restrict b = s.restrict (a.inter b) := by
  refine ext_get? fun name => ?_
  rw [get?_restrict, get?_restrict, get?_restrict, NameSet.contains_inter]
  cases a.contains name <;> cases b.contains name <;> rfl

/-! ## The order -/

/-- Labels compared by their names, labels of one name by their values. -/
def LabelLT : String × String → String × String → Prop := Prod.Lex BytesLT BytesLT

theorem comparePairs_eq_lt {p q : String × String} : comparePairs p q = .lt ↔ LabelLT p q := by
  have texts {s t : String} : compare s t = .lt ↔ BytesLT s t :=
    compareOfLessAndEq_eq_lt.trans bytesLT_iff.symm
  rw [comparePairs, Ordering.then_eq_lt, texts, texts, Std.compare_eq_iff_eq, LabelLT,
    Prod.lex_def]

/-- A label set comes before another exactly if its list of labels does. -/
theorem compare_eq_lt_iff {s t : LabelSet} :
    compare s t = .lt ↔ List.Lex LabelLT s.toList t.toList := by
  show List.compareLex comparePairs s.pairs t.pairs = .lt ↔ List.Lex LabelLT s.pairs t.pairs
  generalize s.pairs = l, t.pairs = m
  induction l generalizing m with
  | nil =>
    cases m with
    | nil => exact iff_of_false (by simp [List.compareLex_nil_nil]) (by simp)
    | cons q m => exact iff_of_true rfl .nil
  | cons p l ih =>
    cases m with
    | nil => exact iff_of_false Ordering.noConfusion (by simp)
    | cons q m =>
      rw [List.compareLex_cons_cons, Ordering.then_eq_lt, comparePairs_eq_lt, ih,
        Std.LawfulEqCmp.compare_eq_iff_eq, List.cons_lex_cons_iff]

theorem compare_swap (s t : LabelSet) : compare t s = (compare s t).swap := Std.OrientedOrd.eq_swap

/-- **Label sets are canonical and in a total order.** Lists of labels that give each name the same
last value, whatever their order and repetitions, make one set, with one fingerprint and one JSON
text; it lists these values under their names, each name once, names increasing byte by byte. A set
comes before another if its list of labels does, which are compared by name and then by value, byte
by byte. This order is antisymmetric, transitive and total, and tells any two sets apart.
Restricting a set to some names and then to others is restricting it to the names in common, and
leaves each name that is kept its value. -/
theorem labels_canonical :
    (∀ l l', (∀ name, last? l name = last? l' name) →
      ofList l = ofList l' ∧ (ofList l).toList = (ofList l').toList ∧
        (ofList l).fingerprint = (ofList l').fingerprint ∧
        (Json.labels (ofList l)).write = (Json.labels (ofList l')).write) ∧
      (∀ l, (ofList l).toList.Pairwise (fun p q => BytesLT p.1 q.1) ∧
        ∀ name value, (name, value) ∈ (ofList l).toList ↔ last? l name = some value) ∧
      (∀ s t : LabelSet, (compare s t = .lt ↔ List.Lex LabelLT s.toList t.toList) ∧
        (compare s t = .eq ↔ s = t) ∧ compare t s = (compare s t).swap) ∧
      (∀ s t u : LabelSet, (s.le t = true → t.le s = true → s = t) ∧
        (s.le t = true → t.le u = true → s.le u = true) ∧ (s.le t = true ∨ t.le s = true)) ∧
      ∀ (s : LabelSet) (a b : NameSet), (s.restrict a).restrict b = s.restrict (a.inter b) ∧
        ∀ name, (s.restrict a).get? name = if a.contains name then s.get? name else none := by
  refine ⟨fun l l' h => ?_, fun l => ⟨?_, fun _ _ => mem_ofList⟩, fun s t => ?_, fun s t u => ?_,
    fun s a b => ⟨restrict_restrict s a b, get?_restrict s a⟩⟩
  · rw [ofList_eq_iff.2 h]
    exact ⟨rfl, rfl, rfl, rfl⟩
  · exact (ofList l).sorted.imp fun hlt => bytesLT_iff.2 hlt
  · exact ⟨compare_eq_lt_iff, Std.compare_eq_iff_eq, compare_swap s t⟩
  · exact ⟨le_antisymm, le_trans, by simpa using le_total s t⟩

end LabelSet

end AlertFlow
