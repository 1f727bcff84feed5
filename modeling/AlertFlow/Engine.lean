import AlertFlow.Alert.Feed
import AlertFlow.Engine.Sweep
import AlertFlow.Overview

/-!
The dispatch engine. Its main loop reads a stream of alerts, puts each alert into a group of every
route selected for it, creating the group if need be, and sweeps away groups that hold nothing.
Groups have timers of their own; the engine only creates and cancels them.

A run of the main loop ends when it is stopped or its stream is exhausted. Stopping a run cancels
every group it created; an exhausted run leaves its groups to their timers, and the next run starts
from an empty map. What the operations leave open, the order of the loop's readings, sweeps and
stops and of the groups' own steps, is left to whoever runs them.
-/
namespace AlertFlow

structure EngineSettings where
  /-- The time between sweeps; never less than a second. -/
  cleanupInterval : Duration := .ofSecs 30
  /-- The least interval of a group. -/
  minGroupInterval : Duration := .ofSecs 10

namespace EngineSettings

/-- The time between sweeps. -/
def sweepInterval (s : EngineSettings) : Duration := s.cleanupInterval.max (.ofSecs 1)

end EngineSettings

/-- A run of the main loop. -/
structure MainLoop where
  run : Nat
  /-- Whether the run has been told to stop. -/
  isCancelled : Bool := false
  /-- The tick from which on a sweep is due. -/
  nextSweep : Nat
  /-- The sweep that is under way; until it is over the loop does nothing else. -/
  sweep : Option Sweep := none

structure Engine where
  tree : Route
  settings : EngineSettings := {}
  groups : GroupMap := .empty
  /-- Groups that are out of the map and may have a timer that still runs, with their runs. -/
  detached : List (Nat × Group) := []
  /-- The run to which the groups of the map belong. -/
  groupsRun : Nat := 0
  /-- The run that a call to stop will end. -/
  registered : Option Nat := none
  mainLoop : Option MainLoop := none
  runs : Nat := 0
  created : Nat := 0

namespace Engine

def sweep? (e : Engine) : Option Sweep := e.mainLoop.bind (·.sweep)

/-- The group that is leaving the map. -/
def leaving? (e : Engine) : Option Group := e.sweep?.bind (·.leaving)

/-- The groups whose timers may run: those of the map, those detached from it, and the one that is
leaving it. -/
def allGroups (e : Engine) : List Group :=
  e.groups.toGroups ++ e.detached.map Prod.snd ++ e.leaving?.toList

def mapSweep (f : Sweep → Sweep) (e : Engine) : Engine :=
  { e with mainLoop := e.mainLoop.map fun loop => { loop with sweep := loop.sweep.map f } }

def mapLeaving (f : Group → Group) (e : Engine) : Engine :=
  e.mapSweep fun s => { s with leaving := s.leaving.map f }

def mapGroups (f : Group → Group) (e : Engine) : Engine :=
  { e.mapLeaving f with
    groups := e.groups.mapGroups f
    detached := e.detached.map fun p => (p.1, f p.2) }

/-- Begins a run of the main loop: it is registered for stopping, and the map is emptied. If the
first sweep cannot be timed, the run ends there and its loop never comes on. -/
def begin (e : Engine) (tick : Nat) : Engine :=
  let run := e.runs + 1
  { e with
    groups := .empty
    detached := e.detached ++ e.groups.toGroups.map fun g => (e.groupsRun, g)
    groupsRun := run
    registered := some run
    mainLoop :=
      if e.settings.sweepInterval.exceedsClock then none
      else some { run, nextSweep := tick + e.settings.sweepInterval.ticks }
    runs := run }

/-- A new group of a route, its timer started; it is cancelled from the start if its run is. -/
def newGroup (e : Engine) (tick : Nat) (isCancelled : Bool) (route : Route) (labels : LabelSet) :
    Group :=
  Group.start { labels, route, serial := e.created, isCancelled } tick e.settings.minGroupInterval

/-- Puts an alert into the group of a route, which is created if it does not exist. -/
def sort (m : Moment) (isCancelled : Bool) (a : Alert) (e : Engine) (route : Route) : Engine :=
  let labels := a.labels.restrict route.options.groupBy
  match e.groups.find? route.id labels.fingerprint with
  | some g => { e with groups := e.groups.place (g.insert m.wall a) }
  | none =>
    let g := e.newGroup m.tick isCancelled route labels
    { e with groups := e.groups.place (g.insert m.wall a), created := e.created + 1 }

/-- The main loop takes an alert from its stream. An alert that comes with an error is passed over;
any other goes into a group of every route selected for it. All its routes are one step here, though
others may have a look at the map between two of them; `sort` is the step for one route. -/
def receive (e : Engine) (m : Moment) (a : Alert) (error : Option StreamError) : Engine :=
  match e.mainLoop, error with
  | some loop, none => (e.tree.select a.labels).foldl (sort m loop.isCancelled a) e
  | _, _ => e

/-- The main loop starts a sweep, if one is due and none is under way. -/
def startSweep (e : Engine) (tick : Nat) : Engine :=
  match e.mainLoop with
  | some loop =>
    if loop.sweep.isNone ∧ loop.nextSweep ≤ tick then
      { e with
        mainLoop := some
          { loop with
            sweep := some (Sweep.start e.groups)
            nextSweep := tick + e.settings.sweepInterval.ticks } }
    else e
  | none => e

/-- The sweep takes a step; one that is done ends, and the routes without groups with it. -/
def stepSweep (e : Engine) : Engine :=
  match e.mainLoop with
  | some loop =>
    match loop.sweep with
    | some s =>
      if s.isDone then
        { e with
          groups := e.groups.withoutEmptyRoutes
          mainLoop := some { loop with sweep := none } }
      else
        let (s, groups) := s.step e.groups
        { e with groups, mainLoop := some { loop with sweep := some s } }
    | none => e
  | none => e

def cancelRun (e : Engine) (run : Nat) : Engine :=
  { e with
    groups := if e.groupsRun = run then e.groups.mapGroups Group.cancel else e.groups
    detached := e.detached.map fun p => if p.1 = run then (p.1, p.2.cancel) else p
    mainLoop := e.mainLoop.map fun loop =>
      if loop.run = run then { loop with isCancelled := true } else loop }

/-- A call to stop takes the registered run, if there is one, and cancels it; the caller then waits
for that run to end. -/
def stop (e : Engine) : Option Nat × Engine :=
  match e.registered with
  | some run => (some run, { e.cancelRun run with registered := none })
  | none => (none, e)

def endLoop (e : Engine) : Engine := { e with mainLoop := none }

def overview (e : Engine) (marker : Marker) (now : Instant) : Overview :=
  Overview.build e.groups.toGroups marker now

end Engine

end AlertFlow
