import AlertFlow.Alert.Store
import AlertFlow.Event

/-!
The event log. Each event is kept as its JSON text under a number counted from one, which is its
identifier whatever the text says; reading an event means reading its text again.
-/
namespace AlertFlow

/-- The texts of the events, in the order in which they were recorded. -/
structure EventLog where
  rows : List String := []

namespace EventLog

/-- Records an event and gives its identifier. -/
def set (log : EventLog) (e : Event) : Nat × EventLog :=
  (log.rows.length + 1, ⟨log.rows ++ [e.toJson.write]⟩)

def decodeRow (id : Nat) (row : String) : Except StoreError Event :=
  match Json.decode Event.ofJson row with
  | .ok e => .ok { e with id := id }
  | .error _ => .error (.persistence "unreadable event")

/-- Reads the event of an identifier. Rows are numbered by signed 64-bit numbers, so a larger
identifier names no row. -/
def get (log : EventLog) (id : Nat) : Except StoreError Event :=
  if id = 0 ∨ signedLimit ≤ id then .error .notFound
  else
    match log.rows[id - 1]? with
    | some row => decodeRow id row
    | none => .error .notFound

def all (log : EventLog) : Except StoreError (List Event) :=
  log.rows.zipIdx.mapM fun p => decodeRow (p.2 + 1) p.1

/-- Records an event at a time, which is its creation time if it has none. -/
def add (log : EventLog) (e : Event) (now : Instant) : Nat × EventLog :=
  log.set { e with createdAt := some (e.createdAt.getD now) }

/-- A failure of the log or the store, as the event service reports it. -/
def lift {α : Type} (r : Except StoreError α) : Except ServiceError α := r.mapError .store

/-- The alerts that an event lists, in its order. Every fingerprint is read before the first alert
is looked up. -/
def alertsOf (log : EventLog) (store : AlertStore) (id : Nat) :
    Except ServiceError (List Alert) := do
  let e ← lift (log.get id)
  let fingerprints ← (e.alerts.mapM Fingerprint.read).mapError ServiceError.domain
  lift (fingerprints.mapM store.get)

end EventLog

end AlertFlow
