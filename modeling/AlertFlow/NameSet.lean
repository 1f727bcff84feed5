/-!
Sets of names, kept in increasing order of code points and without repetition, so that equal sets
are equal values and are listed in one way.
-/
namespace AlertFlow

/-- A set of names, listed in strictly increasing order. -/
structure NameSet where
  names : List String
  sorted : names.Pairwise (· < ·)
deriving DecidableEq

namespace NameSet

/-- Adds a name to an increasing list, unless it is there. -/
def place (name : String) : List String → List String
  | [] => [name]
  | n :: rest =>
    if name < n then name :: n :: rest
    else if name = n then n :: rest
    else n :: place name rest

theorem mem_place {name n : String} {l : List String} :
    n ∈ place name l ↔ n = name ∨ n ∈ l := by
  induction l with
  | nil => simp [place]
  | cons m rest ih =>
    simp only [place]
    split
    · simp
    · split
      · next h => subst h; simp
      · simp only [List.mem_cons, ih]; grind

theorem sorted_place {name : String} {l : List String} (h : l.Pairwise (· < ·)) :
    (place name l).Pairwise (· < ·) := by
  induction l with
  | nil => simp [place]
  | cons m rest ih =>
    have hm := List.pairwise_cons.1 h
    simp only [place]
    split
    · next hlt =>
      refine List.pairwise_cons.2 ⟨fun x hx => ?_, h⟩
      rcases List.mem_cons.1 hx with rfl | hx
      · exact hlt
      · exact String.lt_trans hlt (hm.1 x hx)
    · split
      · exact h
      · next hlt hne =>
        refine List.pairwise_cons.2 ⟨fun x hx => ?_, ih hm.2⟩
        rcases mem_place.1 hx with rfl | hx
        · exact Std.lt_of_le_of_ne (Std.not_lt.1 hlt) (Ne.symm hne)
        · exact hm.1 x hx

def empty : NameSet := ⟨[], List.Pairwise.nil⟩

instance : Inhabited NameSet := ⟨empty⟩

def insert (s : NameSet) (name : String) : NameSet := ⟨place name s.names, sorted_place s.sorted⟩

def ofList (l : List String) : NameSet := l.foldl insert empty

def toList (s : NameSet) : List String := s.names

def contains (s : NameSet) (name : String) : Bool := s.names.contains name

@[simp] theorem contains_empty (n : String) : empty.contains n = false := rfl

theorem contains_insert (s : NameSet) (name n : String) :
    (s.insert name).contains n = (n == name || s.contains n) := by
  simp only [contains, insert, List.contains_eq_mem]
  rw [Bool.eq_iff_iff]
  simp [mem_place]

end NameSet

end AlertFlow
