import AlertFlow.Alert
import AlertFlow.Error

/-!
Notifications: what a receiver is told about a group at one moment, and the plain receiver that only
reports how many alerts of the batch are firing and how many resolved.
-/
namespace AlertFlow

/-- What goes with the alerts of a notification. -/
structure NotifyContext where
  /-- The wall time at which the group's timer fired. -/
  now : Instant
  /-- The fingerprint of the group's labels combined with that of its route. -/
  groupKey : Fingerprint
  groupLabels : LabelSet
  receiver : String
  repeatInterval : Duration

/-- What the plain receiver reports. -/
structure Digest where
  groupKey : Fingerprint
  receiver : String
  firing : Nat
  resolved : Nat

/-- Delivers to the plain receiver. A cancelled delivery is refused first, one to nobody second. -/
def digest (context : NotifyContext) (isCancelled : Bool) (alerts : List Alert) :
    Except NotifyError Digest :=
  if isCancelled then .error .cancelled
  else if context.receiver = "" then .error .invalidTarget
  else
    let firing := (alerts.filter (·.isFiringAt context.now)).length
    .ok { groupKey := context.groupKey, receiver := context.receiver, firing,
          resolved := alerts.length - firing }

end AlertFlow
