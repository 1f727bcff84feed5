import AlertFlow.Json.Decode
import AlertFlow.Json.Writer
import AlertFlow.Time.Timestamp

/-!
Events: human annotations recorded against a set of alerts, such as the note of an incident. The
alerts are named by the texts of their fingerprints, which are kept as they were given.
-/
namespace AlertFlow

/-- A note on some alerts. -/
structure Event where
  id : Nat := 0
  alerts : List String := []
  comment : String := ""
  createdBy : String := ""
  createdAt : Option Instant := none
deriving DecidableEq

namespace Event

def toJson (e : Event) : Json :=
  .record <|
    [("id", .nat e.id), ("alerts", .array (e.alerts.map .string)), ("comment", .string e.comment),
      ("createdBy", .string e.createdBy)] ++
    (e.createdAt.map fun t => ("createdAt", Json.string (Timestamp.write t))).toList

structure Fields where
  id : Option Nat := none
  alerts : Option (List String) := none
  comment : Option String := none
  createdBy : Option String := none
  createdAt : Option (Option Instant) := none

def Fields.read (name : String) (j : Json) (f : Fields) : Except Json.Fault Fields :=
  match name with
  | "id" => do return { f with id := ← Json.fill f.id Json.asWord j }
  | "alerts" => do return { f with alerts := ← Json.fill f.alerts (Json.asList Json.asString) j }
  | "comment" => do return { f with comment := ← Json.fill f.comment Json.asString j }
  | "createdBy" => do return { f with createdBy := ← Json.fill f.createdBy Json.asString j }
  | "createdAt" => do
    return { f with
      createdAt := ← Json.fill f.createdAt (Json.asOptional (Json.asText Timestamp.read?)) j }
  | _ => .ok f

def recordReader : Json.RecordReader Fields :=
  ⟨["id", "alerts", "comment", "createdBy", "createdAt"], Fields.read⟩

/-- Reads an event; every field may be missing. -/
def ofJson (j : Json) : Except Json.Fault Event := do
  let f ← recordReader.collect {} j
  return {
    id := f.id.getD 0
    alerts := f.alerts.getD []
    comment := f.comment.getD ""
    createdBy := f.createdBy.getD ""
    createdAt := f.createdAt.join }

end Event

end AlertFlow
