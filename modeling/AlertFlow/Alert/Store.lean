import AlertFlow.Alert.Feed
import AlertFlow.Table

/-!
The store of alerts. It holds the last alert put for each fingerprint and feeds every alert put to
live readers, repeated fingerprints included.
-/
namespace AlertFlow

/-- The alerts by fingerprint, and the feed of those put. -/
structure AlertStore where
  alerts : Table Fingerprint Alert := .empty
  feed : Feed

namespace AlertStore

/-- An empty store whose live readers may fall behind by so many alerts. -/
def ofCapacity (n : Nat) : AlertStore := { feed := .ofCapacity n }

def putOne (s : AlertStore) (a : Alert) : AlertStore :=
  { alerts := s.alerts.insert a.fingerprint a, feed := s.feed.send a }

/-- Puts a batch, in order. -/
def put (s : AlertStore) (batch : List Alert) : AlertStore := batch.foldl putOne s

def get (s : AlertStore) (fp : Fingerprint) : Except StoreError Alert :=
  match s.alerts.get? fp with
  | some a => .ok a
  | none => .error .notFound

/-- Opens a reader: it replays what is stored and then follows the feed. -/
def subscribe (s : AlertStore) : Subscription :=
  { replay := s.alerts.values, position := some s.feed.sent }

/-- Ends the feed; what it holds can still be read. -/
def close (s : AlertStore) : AlertStore := { s with feed := { s.feed with isClosed := true } }

end AlertStore

end AlertFlow
