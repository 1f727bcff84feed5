import AlertFlow.Json.Decode
import AlertFlow.Json.Writer
import AlertFlow.Time.DurationText

/-!
The options of a route: where its notifications go, by which labels its alerts are grouped, and how
its groups are timed.
-/
namespace AlertFlow

/-- Grouping and timing shared by every group of a route. -/
structure RouteOptions where
  receiver : String
  groupBy : NameSet := .empty
  /-- How long a new group waits before its first notification. -/
  groupWait : Duration
  /-- The time from one notification of a group to the next. -/
  groupInterval : Duration
  /-- The least time before an unchanged group is notified again. -/
  repeatInterval : Duration
deriving DecidableEq

namespace RouteOptions

def toJson (o : RouteOptions) : Json :=
  .record [("receiver", .string o.receiver), ("groupBy", .array (o.groupBy.toList.map .string)),
    ("groupWait", .string o.groupWait.write), ("groupInterval", .string o.groupInterval.write),
    ("repeatInterval", .string o.repeatInterval.write)]

structure Fields where
  receiver : Option String := none
  groupBy : Option NameSet := none
  groupWait : Option Duration := none
  groupInterval : Option Duration := none
  repeatInterval : Option Duration := none

def Fields.read (name : String) (j : Json) (f : Fields) : Except Json.Fault Fields :=
  match name with
  | "receiver" => do return { f with receiver := ← Json.fill f.receiver Json.asString j }
  | "groupBy" => do return { f with groupBy := ← Json.fill f.groupBy Json.asNames j }
  | "groupWait" => do
    return { f with groupWait := ← Json.fill f.groupWait (Json.asText Duration.read?) j }
  | "groupInterval" => do
    return { f with groupInterval := ← Json.fill f.groupInterval (Json.asText Duration.read?) j }
  | "repeatInterval" => do
    return { f with repeatInterval := ← Json.fill f.repeatInterval (Json.asText Duration.read?) j }
  | _ => .ok f

def recordReader : Json.RecordReader Fields :=
  ⟨["receiver", "groupBy", "groupWait", "groupInterval", "repeatInterval"], Fields.read⟩

/-- Reads the options of a route; only the grouping names may be missing. -/
def ofJson (j : Json) : Except Json.Fault RouteOptions := do
  let f ← recordReader.collect {} j
  return {
    receiver := ← Json.require f.receiver
    groupBy := f.groupBy.getD .empty
    groupWait := ← Json.require f.groupWait
    groupInterval := ← Json.require f.groupInterval
    repeatInterval := ← Json.require f.repeatInterval }

end RouteOptions

end AlertFlow
