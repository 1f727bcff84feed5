import AlertFlow.Http
import AlertFlow.Rehearsal.Stage

/-!
Rehearsals of a whole server. The main loop reads all that it can read before anything else happens;
a sweep that is due comes next, and then the groups have their turn. The engine may also be fed by
hand in place of the alert store.
-/
namespace AlertFlow.Rehearsal

/-- A server on a stage, and the time. -/
structure ServerRun where
  server : Server
  stage : Stage := {}
  origin : Instant
  tick : Nat := 0
  /-- Whether the engine's stream is fed by hand. -/
  isManual : Bool := false

namespace ServerRun

def now (r : ServerRun) : Moment := ⟨r.tick, r.origin.afterMillis r.tick⟩

def wall (r : ServerRun) : Instant := r.now.wall

def withEngine (r : ServerRun) (e : Engine) : ServerRun :=
  { r with server := { r.server with engine := e } }

/-- The main loop reads what it can. -/
def readAll (r : ServerRun) : ServerRun :=
  let reads := r.server.unread + 1
  { r with server := (List.range reads).foldl (fun s _ => s.readStream r.now) r.server }

/-- Lets a group have its turn and puts it back in its place. -/
def settleGroup (r : ServerRun) (g : Group) : ServerRun :=
  let (stage, g) := r.stage.settle r.now g
  let e := r.server.engine
  { r.withEngine { e with groups := e.groups.place g } with stage }

/-- Lets the groups that are no longer in the map have their turn. -/
def settleDetached (r : ServerRun) : ServerRun :=
  let (stage, detached) := r.server.engine.detached.foldl (fun (stage, done) (run, g) =>
    let (stage, g) := stage.settle r.now g
    (stage, done ++ [(run, g)])) (r.stage, [])
  { r.withEngine { r.server.engine with detached } with stage }

/-- The sweep goes on for so many steps. A group that leaves gives up at once what it has under
way. -/
def sweepOn : (steps : Nat) → ServerRun → ServerRun
  | 0, r => r
  | steps + 1, r =>
    let e := r.server.engine
    let (stage, e) :=
      match e.leaving? with
      | some g =>
        let (stage, g) := r.stage.settle r.now g
        (stage, e.mapLeaving fun _ => g)
      | none => (r.stage, e)
    sweepOn steps { r.withEngine e.stepSweep with stage }

/-- The main loop sweeps, if that is due. -/
def sweep (r : ServerRun) : ServerRun :=
  let e := r.server.engine
  sweepOn (Sweep.length e.groups + 1) (r.withEngine (e.startSweep r.tick))

/-- Lets everything happen that can happen now. -/
def settle (r : ServerRun) : ServerRun :=
  let r := { r with server := r.server.endRun }
  let r := r.readAll.sweep
  (r.server.engine.groups.toGroups.foldl settleGroup r).settleDetached

def settleAt (tick : Nat) (r : ServerRun) : ServerRun := settle { r with tick }

def due (r : ServerRun) : List Nat :=
  (r.server.engine.mainLoop.map (·.nextSweep)).toList ++
    r.server.engine.allGroups.flatMap fun g =>
      if g.isCancelled then [] else g.dueTicks ++ r.stage.dueTicks g

def advance (r : ServerRun) (ticks : Nat) : ServerRun :=
  let limit := r.tick + ticks
  { Rehearsal.advance due settleAt ticks r.tick limit r with tick := limit }

/-- Begins a run of the main loop, unless one is on. -/
def start (r : ServerRun) : ServerRun :=
  if r.server.engine.mainLoop.isSome then r
  else if r.isManual then settle (r.withEngine (r.server.engine.begin r.tick))
  else settle { r with server := r.server.begin r.tick }

def stop (r : ServerRun) : ServerRun := settle (r.withEngine r.server.engine.stop.2)

/-- Puts alerts into the store, all before anything else happens. -/
def put (r : ServerRun) (alerts : List Alert) : ServerRun :=
  settle { r with server := r.server.put alerts }

/-- Whether the engine reads a stream that is fed by hand. -/
def isListening (r : ServerRun) : Bool := r.isManual && r.server.engine.mainLoop.isSome

/-- Feeds alerts by hand, each with the same error if there is one; no alerts are the end of the
stream. -/
def send (r : ServerRun) (alerts : List Alert) (error : Option StreamError) : ServerRun :=
  let e := r.server.engine
  settle <| r.withEngine <|
    if alerts.isEmpty then e.endLoop
    else alerts.foldl (fun e a => e.receive r.now a error) e

def mark (r : ServerRun) (f : Marker → Marker) : ServerRun :=
  { r with server := { r.server with marker := f r.server.marker } }

def request (r : ServerRun) (q : Request) : Response × ServerRun :=
  let (response, server) := Http.handle r.server r.wall q
  (response, settle { r with server })

def setScript (r : ServerRun) (receiver : Option String) (s : Script) : ServerRun :=
  { r with stage := { r.stage with receivers := r.stage.receivers.set receiver s } }

def takeLog (r : ServerRun) : List LogEntry × ServerRun :=
  (r.stage.log, { r with stage := { r.stage with log := [] } })

end ServerRun

end AlertFlow.Rehearsal
