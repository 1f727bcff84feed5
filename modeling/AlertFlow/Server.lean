import AlertFlow.Engine
import AlertFlow.EventLog

/-!
The server: the alert store, the engine that reads it, the event log and the marks. While the
engine's main loop runs it has a subscription to the store; each step of the loop takes one alert
from it.
-/
namespace AlertFlow

structure Server where
  alerts : AlertStore
  engine : Engine
  /-- The reader of the engine's main loop. -/
  subscription : Option Subscription := none
  events : EventLog := {}
  marker : Marker := {}

namespace Server

/-- Begins a run of the main loop, which reads the store from now on if it comes on. -/
def begin (s : Server) (tick : Nat) : Server :=
  let engine := s.engine.begin tick
  { s with engine, subscription := engine.mainLoop.map fun _ => s.alerts.subscribe }

/-- The main loop, unless it is at a sweep, reads its stream once: it takes an alert, waits if
there is none, or ends with the stream. An error recorded by the reading goes with the alert. -/
def readStream (s : Server) (m : Moment) : Server :=
  match s.engine.mainLoop, s.subscription with
  | some ⟨_, _, _, none⟩, some subscription =>
    match subscription.next s.alerts.feed with
    | (.alert a, subscription) =>
      let (error, subscription) := subscription.takeError
      { s with engine := s.engine.receive m a error, subscription := some subscription }
    | (.pending, subscription) => { s with subscription := some subscription }
    | (.ended, _) => { s with engine := s.engine.endLoop, subscription := none }
  | _, _ => s

/-- How many readings are sure to reach the end of what can be read now. -/
def unread (s : Server) : Nat :=
  match s.subscription with
  | some subscription => subscription.replay.length + s.alerts.feed.held.length
  | none => 0

/-- A cancelled main loop ends, unless it is at a sweep, and gives up its subscription. -/
def endRun (s : Server) : Server :=
  match s.engine.mainLoop with
  | some loop =>
    if loop.isCancelled ∧ loop.sweep.isNone then
      { s with engine := s.engine.endLoop, subscription := none }
    else s
  | none => s

def put (s : Server) (batch : List Alert) : Server := { s with alerts := s.alerts.put batch }

def overview (s : Server) (now : Instant) : Overview := s.engine.overview s.marker now

end Server

end AlertFlow
