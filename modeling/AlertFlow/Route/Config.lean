import AlertFlow.Route

/-!
Routing trees as they are configured. A node may leave out every option; what it leaves out it has
from its parent, and the root from the defaults. There is no default receiver, so a tree can be
built only if every path names one.
-/
namespace AlertFlow

/-- A configured node of a routing tree. -/
structure RouteConfig where
  receiver : Option String := none
  groupBy : Option NameSet := none
  groupWait : Option Duration := none
  groupInterval : Option Duration := none
  repeatInterval : Option Duration := none
  matchers : LabelSet := .empty
  continues : Bool := false
  children : List RouteConfig := []

/-- The options of a root that sets none. -/
def RouteOptions.defaults : RouteOptions where
  receiver := ""
  groupWait := .ofSecs 30
  groupInterval := .ofSecs 300
  repeatInterval := .ofSecs 14400

namespace RouteConfig

mutual

/-- The paths of all nodes of a tree from the one at the given path on, parents first. -/
def pathsFrom (path : List Nat) : RouteConfig → List (List Nat)
  | ⟨_, _, _, _, _, _, _, children⟩ => path :: pathsAmong path 0 children

/-- The paths under siblings, the first of which is the child of this number. -/
def pathsAmong (path : List Nat) (i : Nat) : List RouteConfig → List (List Nat)
  | [] => []
  | c :: rest => pathsFrom (path ++ [i]) c ++ pathsAmong path (i + 1) rest

end

/-- The paths of all nodes, parents first. -/
def paths (c : RouteConfig) : List (List Nat) := c.pathsFrom []

/-- Numbers the nodes of a tree from the given number on, in the order of their paths, and takes the
numbers for identities. -/
def numbered (c : RouteConfig) (first : Nat) (path : List Nat) : RouteId :=
  .ofNat (first + c.paths.idxOf path)

/-- The options of a node: its own where it sets them, its parent's elsewhere. -/
def options (c : RouteConfig) (inherited : RouteOptions) : RouteOptions where
  receiver := c.receiver.getD inherited.receiver
  groupBy := c.groupBy.getD inherited.groupBy
  groupWait := c.groupWait.getD inherited.groupWait
  groupInterval := c.groupInterval.getD inherited.groupInterval
  repeatInterval := c.repeatInterval.getD inherited.repeatInterval

mutual

/-- Builds the subtree at a path, below a node with the given options. -/
def buildUnder (ids : List Nat → RouteId) (inherited : RouteOptions) (path : List Nat) :
    RouteConfig → Except DomainError Route
  | c@⟨_, _, _, _, _, matchers, continues, children⟩ =>
    let options := c.options inherited
    if options.receiver = "" then .error .routeRequiresReceiver
    else do
      let children ← buildAll ids options path 0 children
      return { id := ids path, options, matchers, continues, children }

/-- Builds siblings, the first of which is the child of this number. -/
def buildAll (ids : List Nat → RouteId) (inherited : RouteOptions) (path : List Nat) (i : Nat) :
    List RouteConfig → Except DomainError (List Route)
  | [] => .ok []
  | c :: rest => do
    let route ← buildUnder ids inherited (path ++ [i]) c
    let routes ← buildAll ids inherited path (i + 1) rest
    return route :: routes

end

/-- Builds a routing tree; the identity of a route is given by its path. -/
def build (ids : List Nat → RouteId) (c : RouteConfig) : Except DomainError Route :=
  buildUnder ids .defaults [] c

structure Fields where
  receiver : Option (Option String) := none
  groupBy : Option (Option NameSet) := none
  groupWait : Option (Option Duration) := none
  groupInterval : Option (Option Duration) := none
  repeatInterval : Option (Option Duration) := none
  matchers : Option LabelSet := none
  continues : Option Bool := none
  children : Option (List RouteConfig) := none

/-- The names of the fields, in the order of the positional form. -/
def fieldNames : List String :=
  ["receiver", "group_by", "group_wait", "group_interval", "repeat_interval", "match", "continue",
    "routes"]

/-- Reads one field, children with a given reader. -/
def Fields.read (child : Json → Except Json.Fault RouteConfig) (name : String) (j : Json)
    (f : Fields) : Except Json.Fault Fields :=
  let asDuration := Json.asOptional (Json.asText Duration.read?)
  match name with
  | "receiver" => do
    return { f with receiver := ← Json.fill f.receiver (Json.asOptional Json.asString) j }
  | "group_by" => do
    return { f with groupBy := ← Json.fill f.groupBy (Json.asOptional Json.asNames) j }
  | "group_wait" => do return { f with groupWait := ← Json.fill f.groupWait asDuration j }
  | "group_interval" => do
    return { f with groupInterval := ← Json.fill f.groupInterval asDuration j }
  | "repeat_interval" => do
    return { f with repeatInterval := ← Json.fill f.repeatInterval asDuration j }
  | "match" => do return { f with matchers := ← Json.fill f.matchers Json.asLabels j }
  | "continue" => do return { f with continues := ← Json.fill f.continues Json.asBool j }
  | "routes" => do return { f with children := ← Json.fill f.children (Json.asList child) j }
  | _ => .ok f

/-- The node with the fields read and the rest left out. -/
def Fields.toConfig (f : Fields) : RouteConfig where
  receiver := f.receiver.join
  groupBy := f.groupBy.join
  groupWait := f.groupWait.join
  groupInterval := f.groupInterval.join
  repeatInterval := f.repeatInterval.join
  matchers := f.matchers.getD .empty
  continues := f.continues.getD false
  children := f.children.getD []

/-- Reads a node whose value is nested at most so deep. -/
def ofJsonWithin : (depth : Nat) → Json → Except Json.Fault RouteConfig
  | 0, j => .error j.wrongShape
  | depth + 1, j => do
    let f ← Json.RecordReader.collect ⟨fieldNames, Fields.read (ofJsonWithin depth)⟩ {} j
    return f.toConfig

def ofJson (j : Json) : Except Json.Fault RouteConfig := ofJsonWithin j.depth j

end RouteConfig

end AlertFlow
