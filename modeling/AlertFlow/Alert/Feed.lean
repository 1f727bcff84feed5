import AlertFlow.Alert
import AlertFlow.Error

/-!
Live streams of alerts. A feed holds the last alerts sent, as many as its capacity; each
subscription reads them at its own pace from its own position. A subscription that is overtaken
skips to the oldest alert still held and records how many it missed. Before the live alerts a
subscription replays those that were stored when it was opened.
-/
namespace AlertFlow

/-- The alerts held for live readers, oldest first, behind those that are no longer held. -/
structure Feed where
  capacity : Nat
  /-- How many alerts were sent and are no longer held. -/
  dropped : Nat := 0
  held : List Alert := []
  /-- Whether no alert will follow. -/
  isClosed : Bool := false

namespace Feed

/-- A feed that holds at least so many alerts: the capacity is the next power of two. -/
def ofCapacity (n : Nat) : Feed := { capacity := (max n 1).nextPowerOfTwo }

/-- Sends an alert, giving up the oldest one if the feed is full. -/
def send (f : Feed) (a : Alert) : Feed :=
  if f.held.length < f.capacity then { f with held := f.held ++ [a] }
  else { f with dropped := f.dropped + 1, held := f.held.drop 1 ++ [a] }

def sent (f : Feed) : Nat := f.dropped + f.held.length

end Feed

/-- A reader of stored and live alerts. -/
structure Subscription where
  /-- Stored alerts that are still to be replayed. -/
  replay : List Alert
  /-- How many live alerts have been passed, read or missed; nothing once closed. -/
  position : Option Nat
  /-- The error recorded last, until it is taken. -/
  error : Option StreamError := none

/-- What reading a stream gives. -/
inductive Reading where
  | alert (a : Alert)
  /-- There is nothing to read now. -/
  | pending
  /-- There will be nothing to read. -/
  | ended
deriving DecidableEq

namespace Subscription

/-- Moves an overtaken reader to the oldest alert held, recording how many it missed. -/
def catchUp (s : Subscription) (f : Feed) : Subscription :=
  match s.position with
  | some p =>
    if p < f.dropped then
      { s with position := some f.dropped, error := some (.lagged (f.dropped - p)) }
    else s
  | none => s

def nextLive (s : Subscription) (f : Feed) : Reading × Subscription :=
  match s.position with
  | some p =>
    match f.held[p - f.dropped]? with
    | some a => (.alert a, { s with position := some (p + 1) })
    | none => (if f.isClosed then .ended else .pending, s)
  | none => (.ended, s)

/-- Reads the next alert: a stored one as long as there are any, then live ones. A reading is one
step, in which the reader is overtaken at most once: nothing is sent between its catching up and its
taking the oldest alert held. A reader overtaken again in between would skip again, and record only
how many it missed the last time. -/
def next (s : Subscription) (f : Feed) : Reading × Subscription :=
  match s.replay with
  | a :: rest => (.alert a, { s with replay := rest })
  | [] => (s.catchUp f).nextLive f

def takeError (s : Subscription) : Option StreamError × Subscription :=
  (s.error, { s with error := none })

def close (s : Subscription) : Subscription := { s with replay := [], position := none }

end Subscription

end AlertFlow
