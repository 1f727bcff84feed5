import AlertFlow.NameSet

/-!
Label sets: finite maps from names to values, kept in increasing order of names. Two sets with the
same labels are the same value, so everything computed from a set (its hash, its written form, its
place in a sorted list) depends on its labels only. Names and values are compared by code points.
-/
namespace AlertFlow

/-- Labels by name, in strictly increasing order of names. -/
structure LabelSet where
  pairs : List (String × String)
  sorted : pairs.Pairwise fun a b => a.1 < b.1
deriving DecidableEq

namespace LabelSet

/-- Writes a label into an increasing list, in place of one of the same name. -/
def place (name value : String) : List (String × String) → List (String × String)
  | [] => [(name, value)]
  | p :: rest =>
    if name < p.1 then (name, value) :: p :: rest
    else if name = p.1 then (name, value) :: rest
    else p :: place name value rest

theorem fst_mem_place {name value : String} {p : String × String} {l : List (String × String)}
    (h : p ∈ place name value l) : p = (name, value) ∨ p ∈ l := by
  induction l with
  | nil => simpa [place] using h
  | cons q rest ih =>
    simp only [place] at h
    split at h
    · simpa using h
    · split at h
      · rcases List.mem_cons.1 h with h | h
        · exact .inl h
        · exact .inr (List.mem_cons_of_mem _ h)
      · rcases List.mem_cons.1 h with h | h
        · exact .inr (h ▸ List.mem_cons_self)
        · exact (ih h).imp id (List.mem_cons_of_mem _)

theorem sorted_place {name value : String} {l : List (String × String)}
    (h : l.Pairwise fun a b => a.1 < b.1) :
    (place name value l).Pairwise fun a b => a.1 < b.1 := by
  induction l with
  | nil => simp [place]
  | cons q rest ih =>
    have hq := List.pairwise_cons.1 h
    simp only [place]
    split
    · next hlt =>
      refine List.pairwise_cons.2 ⟨fun x hx => ?_, h⟩
      rcases List.mem_cons.1 hx with rfl | hx
      · exact hlt
      · exact String.lt_trans hlt (hq.1 x hx)
    · split
      · next heq => exact List.pairwise_cons.2 ⟨fun x hx => heq ▸ hq.1 x hx, hq.2⟩
      · next hlt hne =>
        refine List.pairwise_cons.2 ⟨fun x hx => ?_, ih hq.2⟩
        rcases fst_mem_place hx with rfl | hx
        · exact Std.lt_of_le_of_ne (Std.not_lt.1 hlt) (Ne.symm hne)
        · exact hq.1 x hx

def empty : LabelSet := ⟨[], List.Pairwise.nil⟩

instance : Inhabited LabelSet := ⟨empty⟩

def insert (s : LabelSet) (name value : String) : LabelSet :=
  ⟨place name value s.pairs, sorted_place s.sorted⟩

/-- The set of the labels in a list, the last value of a name standing. -/
def ofList (l : List (String × String)) : LabelSet := l.foldl (fun s p => s.insert p.1 p.2) empty

/-- The labels, in increasing order of names. -/
def toList (s : LabelSet) : List (String × String) := s.pairs

def get? (s : LabelSet) (name : String) : Option String := s.pairs.lookup name

def size (s : LabelSet) : Nat := s.pairs.length

def isEmpty (s : LabelSet) : Bool := s.pairs.isEmpty

/-- The labels whose names are in a set of names. -/
def restrict (s : LabelSet) (names : NameSet) : LabelSet :=
  ⟨s.pairs.filter fun p => names.contains p.1, s.sorted.sublist List.filter_sublist⟩

/-- Whether every label of `required` is present with an equal value. -/
def includes (s required : LabelSet) : Bool :=
  required.pairs.all fun p => s.get? p.1 == some p.2

/-- Labels are compared by name, then by value. -/
def comparePairs (a b : String × String) : Ordering := (compare a.1 b.1).then (compare a.2 b.2)

/-- Label sets are compared label by label in order of names; a set that runs out first is smaller.
-/
instance : Ord LabelSet := ⟨fun a b => List.compareLex comparePairs a.pairs b.pairs⟩

/-- Whether a set does not come after another, as a test to sort by. -/
def le (a b : LabelSet) : Bool := (compare a b).isLE

theorem get?_insert (s : LabelSet) (name value n : String) :
    (s.insert name value).get? n = if n = name then some value else s.get? n := by
  show (place name value s.pairs).lookup n = if n = name then some value else s.pairs.lookup n
  by_cases e : n = name
  · subst e
    rw [if_pos rfl]
    induction s.pairs with
    | nil => exact List.lookup_cons_self
    | cons q rest ih =>
      simp only [place]
      split
      · exact List.lookup_cons_self
      · split
        · exact List.lookup_cons_self
        · next hq =>
          have differs : (n == q.1) = false := by simpa using hq
          rw [List.lookup_cons, differs]
          exact ih
  · have apart : (n == name) = false := by simpa using e
    rw [if_neg e]
    induction s.pairs with
    | nil => rw [place, List.lookup_cons, apart]
    | cons q rest ih =>
      simp only [place]
      split
      · rw [List.lookup_cons, apart]
      · split
        · next hq => rw [List.lookup_cons, apart, List.lookup_cons, ← hq, apart]
        · rw [List.lookup_cons, List.lookup_cons, ih]

end LabelSet

end AlertFlow
