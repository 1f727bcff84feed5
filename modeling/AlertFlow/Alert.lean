import AlertFlow.Fingerprint
import AlertFlow.Json.Decode
import AlertFlow.Json.Writer
import AlertFlow.Time.Timestamp

/-!
Alerts: conditions that hold, or held, for a set of labels. An alert is resolved from its end on;
one without an end, or with an end to come, is firing. Sources post alerts in a raw form whose
start may be missing and is then the time of posting.
-/
namespace AlertFlow

/-- A single condition, identified by its labels. -/
structure Alert where
  labels : LabelSet
  annotations : LabelSet := .empty
  startsAt : Instant
  endsAt : Option Instant := none
  generatorUrl : Option String := none
deriving DecidableEq

/-- An alert as a source posts it, before its start is filled in. -/
structure RawAlert where
  labels : LabelSet
  annotations : LabelSet := .empty
  startsAt : Option Instant := none
  endsAt : Option Instant := none
  generatorUrl : Option String := none
deriving DecidableEq

namespace Alert

def fingerprint (a : Alert) : Fingerprint := a.labels.fingerprint

/-- Whether the alert has ended by a time. -/
def isResolvedAt (a : Alert) (now : Instant) : Bool :=
  match a.endsAt with
  | some t => t ≤ now
  | none => false

def isFiringAt (a : Alert) (now : Instant) : Bool := !a.isResolvedAt now

/-- Once resolved, an alert stays resolved. -/
theorem isResolvedAt_of_le {a : Alert} {now later : Instant} (h : now ≤ later)
    (hr : a.isResolvedAt now = true) : a.isResolvedAt later = true := by
  unfold isResolvedAt at *
  cases ht : a.endsAt with
  | none => simp [ht] at hr
  | some t =>
    rw [ht] at hr
    exact decide_eq_true (Instant.le_trans (of_decide_eq_true hr) h)

/-- Whether a length of time has fully passed since the alert started. A start and a length whose
sum cannot be represented are too far off to have passed. -/
def hasWaited (a : Alert) (wait : Duration) (now : Instant) : Bool :=
  match a.startsAt.later? wait with
  | some t => t < now
  | none => false

/-- Alerts in the order of their label sets, as a test to sort by. -/
def labelsLE (a b : Alert) : Bool := a.labels.le b.labels

def toJson (a : Alert) : Json :=
  .record <|
    [("labels", .labels a.labels), ("annotations", .labels a.annotations),
      ("startsAt", .string (Timestamp.write a.startsAt))] ++
    (a.endsAt.map fun t => ("endsAt", Json.string (Timestamp.write t))).toList ++
    (a.generatorUrl.map fun url => ("generatorURL", Json.string url)).toList

structure Fields where
  labels : Option LabelSet := none
  annotations : Option LabelSet := none
  startsAt : Option Instant := none
  endsAt : Option (Option Instant) := none
  generatorUrl : Option (Option String) := none

def Fields.read (name : String) (j : Json) (f : Fields) : Except Json.Fault Fields :=
  match name with
  | "labels" => do return { f with labels := ← Json.fill f.labels Json.asLabels j }
  | "annotations" => do return { f with annotations := ← Json.fill f.annotations Json.asLabels j }
  | "startsAt" => do
    return { f with startsAt := ← Json.fill f.startsAt (Json.asText Timestamp.read?) j }
  | "endsAt" => do
    return { f with
      endsAt := ← Json.fill f.endsAt (Json.asOptional (Json.asText Timestamp.read?)) j }
  | "generatorURL" => do
    return { f with generatorUrl := ← Json.fill f.generatorUrl (Json.asOptional Json.asString) j }
  | _ => .ok f

def recordReader : Json.RecordReader Fields :=
  ⟨["labels", "annotations", "startsAt", "endsAt", "generatorURL"], Fields.read⟩

/-- Reads an alert; labels and start must be given. -/
def ofJson (j : Json) : Except Json.Fault Alert := do
  let f ← recordReader.collect {} j
  return {
    labels := ← Json.require f.labels
    annotations := f.annotations.getD .empty
    startsAt := ← Json.require f.startsAt
    endsAt := f.endsAt.join
    generatorUrl := f.generatorUrl.join }

end Alert

namespace RawAlert

/-- The alert that was posted at a time, which is its start if none was given. -/
def toAlert (r : RawAlert) (now : Instant) : Alert where
  labels := r.labels
  annotations := r.annotations
  startsAt := r.startsAt.getD now
  endsAt := r.endsAt
  generatorUrl := r.generatorUrl

structure Fields where
  labels : Option LabelSet := none
  annotations : Option LabelSet := none
  startsAt : Option (Option Instant) := none
  endsAt : Option (Option Instant) := none
  generatorUrl : Option (Option String) := none

def Fields.read (name : String) (j : Json) (f : Fields) : Except Json.Fault Fields :=
  match name with
  | "labels" => do return { f with labels := ← Json.fill f.labels Json.asLabels j }
  | "annotations" => do return { f with annotations := ← Json.fill f.annotations Json.asLabels j }
  | "startsAt" => do
    return { f with
      startsAt := ← Json.fill f.startsAt (Json.asOptional (Json.asText Timestamp.read?)) j }
  | "endsAt" => do
    return { f with
      endsAt := ← Json.fill f.endsAt (Json.asOptional (Json.asText Timestamp.read?)) j }
  | "generatorURL" => do
    return { f with generatorUrl := ← Json.fill f.generatorUrl (Json.asOptional Json.asString) j }
  | _ => .ok f

def recordReader : Json.RecordReader Fields :=
  ⟨["labels", "annotations", "startsAt", "endsAt", "generatorURL"], Fields.read⟩

/-- Reads a raw alert; only the labels must be given. -/
def ofJson (j : Json) : Except Json.Fault RawAlert := do
  let f ← recordReader.collect {} j
  return {
    labels := ← Json.require f.labels
    annotations := f.annotations.getD .empty
    startsAt := f.startsAt.join
    endsAt := f.endsAt.join
    generatorUrl := f.generatorUrl.join }

end RawAlert

end AlertFlow
