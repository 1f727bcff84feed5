import AlertFlow.Group

/-!
The map of groups: the groups of each route by the fingerprint of their labels. Routes without
groups may stand in it until they are cleared away.
-/
namespace AlertFlow

/-- Groups by route, and under a route by the fingerprint of their labels. -/
abbrev GroupMap := Table RouteId (Table Fingerprint Group)

namespace GroupMap

def toGroups (m : GroupMap) : List Group := m.values.flatMap (·.values)

/-- The group of a route and grouping labels. -/
def find? (m : GroupMap) (id : RouteId) (fp : Fingerprint) : Option Group :=
  (m.get? id).bind (·.get? fp)

/-- Puts a group under its route and the fingerprint of its labels. -/
def place (m : GroupMap) (g : Group) : GroupMap :=
  m.insert g.route.id (((m.get? g.route.id).getD .empty).insert g.fingerprint g)

def remove (m : GroupMap) (id : RouteId) (fp : Fingerprint) : GroupMap := m.modify id (·.erase fp)

def emptyUnder (m : GroupMap) (id : RouteId) : List Fingerprint :=
  match m.get? id with
  | some groups => (groups.toList.filter (·.2.isEmpty)).map Prod.fst
  | none => []

def mapGroups (f : Group → Group) (m : GroupMap) : GroupMap := m.map (·.map f)

def withoutEmptyRoutes (m : GroupMap) : GroupMap := m.filter fun _ groups => !groups.isEmpty

end GroupMap

end AlertFlow
