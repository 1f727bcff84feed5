import AlertFlow.Group.Map

/-!
Sweeps: the groups that hold no alerts are taken out of the map. A sweep looks through one route
after another; the groups that it finds without alerts it takes out one by one, cancelling each and
waiting until it has ended before it goes on. Other groups may run on meanwhile, so a group can
become empty behind the sweep's back and is then left for the next one.
-/
namespace AlertFlow

/-- A sweep that is under way. -/
structure Sweep where
  /-- The routes still to be looked through. -/
  routes : List RouteId
  /-- The groups found without alerts that are still in the map. -/
  found : List (RouteId × Fingerprint) := []
  /-- A group that has been taken out and has not been seen to end. -/
  leaving : Option Group := none

namespace Sweep

def start (m : GroupMap) : Sweep := { routes := m.toList.map Prod.fst }

/-- Whether all routes have been looked through and all groups found have ended. -/
def isDone (s : Sweep) : Bool := s.routes.isEmpty && s.found.isEmpty && s.leaving.isNone

/-- The next step of a sweep. It does nothing as long as a group that was taken out has not ended.
-/
def step (s : Sweep) (m : GroupMap) : Sweep × GroupMap :=
  match s.leaving, s.found, s.routes with
  | some g, _, _ => if g.hasEnded then ({ s with leaving := none }, m) else (s, m)
  | none, (id, fp) :: found, _ =>
    ({ s with found, leaving := (m.find? id fp).map Group.cancel }, m.remove id fp)
  | none, [], id :: routes =>
    ({ s with routes, found := (m.emptyUnder id).map fun fp => (id, fp) }, m)
  | none, [], [] => (s, m)

/-- How many steps a sweep of a map takes, if every group ends as soon as it is taken out. -/
def length (m : GroupMap) : Nat := m.size + 2 * m.toGroups.length

end Sweep

end AlertFlow
