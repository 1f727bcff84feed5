import AlertFlow.Rehearsal.Stage

/-!
Rehearsals of a single group.
-/
namespace AlertFlow.Rehearsal

/-- A group on a stage, and the time. -/
structure GroupRun where
  group : Group
  stage : Stage := {}
  /-- The moment at which the clock started. -/
  origin : Instant
  tick : Nat := 0

namespace GroupRun

def wall (r : GroupRun) : Instant := r.origin.afterMillis r.tick

/-- Lets everything happen that can happen at a tick, which is the current one from then on. -/
def settleAt (tick : Nat) (r : GroupRun) : GroupRun :=
  let (stage, group) := r.stage.settle ⟨tick, r.origin.afterMillis tick⟩ r.group
  { r with stage, group, tick }

def settle (r : GroupRun) : GroupRun := r.settleAt r.tick

/-- Inserts alerts, all before anything else happens. -/
def insert (r : GroupRun) (alerts : List Alert) : GroupRun :=
  settle { r with group := alerts.foldl (fun g a => g.insert r.wall a) r.group }

def start (r : GroupRun) (minInterval : Duration) : GroupRun :=
  settle { r with group := r.group.start r.tick minInterval }

def stop (r : GroupRun) : GroupRun := settle { r with group := r.group.cancel }

def setScript (r : GroupRun) (receiver : Option String) (s : Script) : GroupRun :=
  { r with stage := { r.stage with receivers := r.stage.receivers.set receiver s } }

def advance (r : GroupRun) (ticks : Nat) : GroupRun :=
  let limit := r.tick + ticks
  let due (r : GroupRun) := r.group.dueTicks ++ r.stage.dueTicks r.group
  { Rehearsal.advance due settleAt ticks r.tick limit r with tick := limit }

def takeLog (r : GroupRun) : List LogEntry × GroupRun :=
  (r.stage.log, { r with stage := { r.stage with log := [] } })

end GroupRun

end AlertFlow.Rehearsal
