import AlertFlow.Group
import AlertFlow.Marker

/-!
The overview: the firing alerts of all groups at one time, with their marks. Groups of different
routes with the same grouping labels are shown together, one block for each route. Groups and blocks
without a firing alert are left out.
-/
namespace AlertFlow

/-- A firing alert with its marks. -/
structure OverviewAlert where
  alert : Alert
  /-- As events refer to the alert. -/
  fingerprint : Fingerprint
  isInhibited : Bool
  /-- The silence that mutes the alert, or zero. -/
  silence : Nat

/-- What one route holds under a set of grouping labels. -/
structure OverviewBlock where
  options : RouteOptions
  alerts : List OverviewAlert

/-- What all routes hold under a set of grouping labels. -/
structure OverviewGroup where
  labels : LabelSet
  blocks : List OverviewBlock

/-- The groups in the order of their label sets. -/
abbrev Overview := List OverviewGroup

namespace Overview

/-- An alert with its marks. -/
def mark (marker : Marker) (a : Alert) : OverviewAlert :=
  let fp := a.fingerprint
  { alert := a, fingerprint := fp, isInhibited := marker.isInhibited fp,
    silence := (marker.silencedBy? fp).getD 0 }

/-- The firing alerts of a group, in the order of their label sets. -/
def firing (g : Group) (marker : Marker) (now : Instant) : List OverviewAlert :=
  ((g.alerts.filter (·.isFiringAt now)).map (mark marker)).mergeSort
    fun a b => a.alert.labels.le b.alert.labels

/-- Adds a group to those seen, which are kept by the fingerprint of their grouping labels. -/
def takeGroup (marker : Marker) (now : Instant) (seen : Table Fingerprint OverviewGroup)
    (g : Group) : Table Fingerprint OverviewGroup :=
  let entry := (seen.get? g.fingerprint).getD { labels := g.labels, blocks := [] }
  let alerts := firing g marker now
  let blocks :=
    if alerts.isEmpty then entry.blocks
    else entry.blocks ++ [{ options := g.route.options, alerts }]
  seen.insert g.fingerprint { entry with blocks }

/-- Blocks in the order of their receivers. -/
def sortBlocks (g : OverviewGroup) : OverviewGroup :=
  { g with
    blocks := g.blocks.mergeSort fun a b => decide (a.options.receiver ≤ b.options.receiver) }

/-- The overview of some groups at a time. -/
def build (groups : List Group) (marker : Marker) (now : Instant) : Overview :=
  let seen := (groups.foldl (takeGroup marker now) Table.empty).values
  ((seen.filter fun g => !g.blocks.isEmpty).map sortBlocks).mergeSort
    fun a b => a.labels.le b.labels

end Overview

def OverviewAlert.toJson (a : OverviewAlert) : Json :=
  let marks :=
    [("fingerprint", Json.string a.fingerprint.hex), ("inhibited", .bool a.isInhibited)] ++
    (if a.silence = 0 then [] else [("silenced", .nat a.silence)])
  match a.alert.toJson with
  | .object members => .object (members ++ marks.map fun m => (some m.1, m.2))
  | j => j

def OverviewBlock.toJson (b : OverviewBlock) : Json :=
  .record [("routeOpts", b.options.toJson), ("alerts", .array (b.alerts.map (·.toJson)))]

def OverviewGroup.toJson (g : OverviewGroup) : Json :=
  .record [("labels", .labels g.labels), ("blocks", .array (g.blocks.map (·.toJson)))]

def Overview.toJson (o : Overview) : Json := .array (o.map (·.toJson))

end AlertFlow
