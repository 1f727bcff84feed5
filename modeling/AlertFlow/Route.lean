import AlertFlow.Route.Options
import AlertFlow.RouteId

/-!
Routing trees. A label set enters at the root, which takes everything, and goes down into the
children whose matchers it meets: into the first such child, and into later ones as long as the
children before them continue. A route is selected where the label set can go no deeper. Main
statements: something is always selected, and a route is selected alone exactly when the label set
meets none of its children.
-/
namespace AlertFlow

/-- A node of a routing tree. -/
structure Route where
  id : RouteId
  options : RouteOptions
  /-- Labels that must be present, with equal values. -/
  matchers : LabelSet
  /-- Whether siblings behind this route are tried after it has matched. -/
  continues : Bool
  children : List Route

namespace Route

/-- Whether all matchers are present in a label set with equal values. -/
def accepts (r : Route) (labels : LabelSet) : Bool := labels.includes r.matchers

def fingerprint (r : Route) : Fingerprint := r.id.fingerprint

mutual

/-- The routes below and including this one that a label set is selected for, once it is here. -/
def select (labels : LabelSet) : Route → List Route
  | r@⟨_, _, _, _, children⟩ =>
    let below := selectAmong labels children
    if below.isEmpty then [r] else below

/-- The routes selected under siblings. -/
def selectAmong (labels : LabelSet) : List Route → List Route
  | [] => []
  | c :: rest =>
    if c.accepts labels then
      select labels c ++ (if c.continues then selectAmong labels rest else [])
    else selectAmong labels rest

end

mutual

/-- Every route of a tree with its path, parents first. A path counts children from zero. -/
def walkFrom (path : List Nat) : Route → List (List Nat × Route)
  | r@⟨_, _, _, _, children⟩ => (path, r) :: walkAmong path 0 children

/-- The routes under siblings, the first of which is the child of this number. -/
def walkAmong (path : List Nat) (i : Nat) : List Route → List (List Nat × Route)
  | [] => []
  | c :: rest => walkFrom (path ++ [i]) c ++ walkAmong path (i + 1) rest

end

/-- Every route of a tree with its path from the root. -/
def walk (r : Route) : List (List Nat × Route) := r.walkFrom []

/-- The path of the route of an identity. -/
def pathOf? (r : Route) (id : RouteId) : Option (List Nat) :=
  (r.walk.find? fun p => p.2.id = id).map Prod.fst

theorem select_eq (labels : LabelSet) (r : Route) :
    r.select labels =
      if (selectAmong labels r.children).isEmpty then [r] else selectAmong labels r.children := by
  cases r
  simp [select]

theorem select_ne_nil (labels : LabelSet) (r : Route) : r.select labels ≠ [] := by
  rw [select_eq]
  split
  · simp
  · next h => simpa using h

/-- A tree selects under siblings unless a label set meets none of them. -/
theorem selectAmong_eq_nil_iff (labels : LabelSet) (l : List Route) :
    selectAmong labels l = [] ↔ ∀ c ∈ l, c.accepts labels = false := by
  induction l with
  | nil => simp [selectAmong]
  | cons c rest ih =>
    cases h : c.accepts labels with
    | true => simp [selectAmong, h, select_ne_nil]
    | false => simp [selectAmong, h, ih]

end Route

end AlertFlow
