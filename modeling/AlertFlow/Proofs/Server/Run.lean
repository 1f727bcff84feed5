import AlertFlow.Proofs.Engine.Step
import AlertFlow.Server

/-!
Runs of a server, from its setting up on: alerts are put, marks are changed, runs of the main loop
begin, read and end, and the engine takes its steps, in any order. Beside the state a log is kept of
what has passed between the store and the main loop since the run of the main loop began.
-/
namespace AlertFlow.Server

/-- A server that has just been set up. -/
def setUp (buffer : Nat) (tree : Route) (settings : EngineSettings) : Server where
  alerts := .ofCapacity buffer
  engine := { tree, settings }

/-- What happens at a server. -/
inductive Event where
  | put (batch : List Alert)
  | mark (f : Marker → Marker)
  /-- A run of the main loop begins, unless one is on. -/
  | begin (tick : Nat)
  | read (m : Moment)
  | endRun
  | engine (s : Engine.Step)

/-- Lets an event happen. -/
def react (s : Server) : Event → Server
  | .put batch => s.put batch
  | .mark f => { s with marker := f s.marker }
  | .begin tick => if s.engine.mainLoop.isSome then s else s.begin tick
  | .read m => s.readStream m
  | .endRun => s.endRun
  | .engine step => { s with engine := s.engine.step step }

/-- Lets events happen one after another. -/
def run (s : Server) (events : List Event) : Server := events.foldl react s

theorem run_concat (s : Server) (events : List Event) (e : Event) :
    s.run (events ++ [e]) = (s.run events).react e := by
  simp [run]

theorem alerts_readStream (s : Server) (m : Moment) : (s.readStream m).alerts = s.alerts := by
  unfold readStream
  split
  · split <;> rfl
  · rfl

theorem alerts_endRun (s : Server) : s.endRun.alerts = s.alerts := by
  unfold endRun
  split
  · split <;> rfl
  · rfl

/-- The wall time of an event that has one. -/
def Event.wall? : Event → Option Instant
  | .read m => some m.wall
  | .engine step => step.wall?
  | _ => none

/-! ## Readings -/

/-- What the main loop gets if it reads its stream now: an alert, with the error that was recorded
by the reading. It gets nothing while it is at a sweep or has nothing to read. -/
def reading? (s : Server) : Option (Alert × Option StreamError) :=
  match s.engine.mainLoop, s.subscription with
  | some ⟨_, _, _, none⟩, some subscription =>
    match subscription.next s.alerts.feed with
    | (.alert a, subscription) => some (a, subscription.error)
    | _ => none
  | _, _ => none

/-- The alerts that were read without an error. -/
def accepted (readings : List (Alert × Option StreamError)) : List Alert :=
  (readings.filter (·.2.isNone)).map Prod.fst

theorem accepted_concat (readings : List (Alert × Option StreamError)) (a : Alert) :
    accepted (readings ++ [(a, none)]) = accepted readings ++ [a] := by
  simp [accepted]

theorem accepted_concat_error (readings : List (Alert × Option StreamError)) (a : Alert)
    (error : StreamError) : accepted (readings ++ [(a, some error)]) = accepted readings := by
  simp [accepted]

/-- Whether the main loop runs and has read all that there was to read. -/
def isDrained (s : Server) : Bool :=
  match s.subscription with
  | some subscription =>
    match subscription.next s.alerts.feed with
    | (.pending, _) => true
    | _ => false
  | none => false

/-- What has passed between the store and the main loop since its run began. -/
structure Log where
  /-- The alerts that were stored when the run began. -/
  stored : List Alert := []
  /-- The alerts that were put since. -/
  sent : List Alert := []
  /-- What the main loop has read, with the errors. -/
  read : List (Alert × Option StreamError) := []

namespace Log

/-- Enters an event that is about to happen at a server. -/
def enter (l : Log) (s : Server) : Event → Log
  | .put batch => { l with sent := l.sent ++ batch }
  | .begin _ => if s.engine.mainLoop.isSome then l else { stored := s.alerts.alerts.values }
  | .read _ => { l with read := l.read ++ s.reading?.toList }
  | _ => l

end Log

/-- A log kept on during a run. -/
def logFrom : Server → Log → List Event → Log
  | _, l, [] => l
  | s, l, e :: events => logFrom (s.react e) (l.enter s e) events

/-- The log of a run. -/
def log (s : Server) (events : List Event) : Log := s.logFrom {} events

theorem log_concat (s : Server) (events : List Event) (e : Event) :
    s.log (events ++ [e]) = (s.log events).enter (s.run events) e := by
  unfold log
  generalize ({} : Log) = l
  induction events generalizing s l with
  | nil => rfl
  | cons d events ih => exact ih (s.react d) (l.enter s d)

end AlertFlow.Server
