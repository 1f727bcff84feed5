import AlertFlow.Group.Holdings
import AlertFlow.Notification
import AlertFlow.Route
import AlertFlow.Time.Moment

/-!
Groups of alerts: the alerts of one route that agree on the labels it groups by, and the timer that
has them notified. The timer first fires once the route's group wait has passed and then once an
interval. Each firing leads to one flush, which runs beside the timer: it takes a snapshot and
delivers it, within one interval. An alert that already waited for longer than the group wait,
inserted before anything was delivered, wakes the timer to fire at once.

Every operation is a small step; which of the enabled steps comes next is left to whoever runs them.
-/
namespace AlertFlow

/-- Where the timer of a group stands. -/
inductive GroupTimer where
  | unstarted
  /-- Running, and due to fire at a tick. -/
  | armed (due : Nat)
  /-- The timer has ended and will not fire again. -/
  | ended
deriving DecidableEq

/-- One firing of a group's timer, until its delivery has ended. -/
structure Flush where
  number : Nat
  context : NotifyContext
  /-- The tick by which the delivery must have ended. -/
  deadline : Nat
  /-- The alerts in delivery, once they have been taken. -/
  snapshot : Option Snapshot := none

/-- Gives a flush its snapshot, if it is the one of this number. -/
def Flush.take (number : Nat) (s : Snapshot) (f : Flush) : Flush :=
  if f.number = number then { f with snapshot := some s } else f

/-- The alerts of a route under one set of grouping labels, with their timer. -/
structure Group where
  labels : LabelSet
  route : Route
  /-- Tells the group from others of its key that came before it or will come after it. -/
  serial : Nat
  holdings : Holdings := {}
  /-- The least interval that the timer was started with. -/
  minInterval : Duration := .zero
  timer : GroupTimer := .unstarted
  /-- Whether the timer has been woken and has not taken notice. -/
  isWoken : Bool := false
  isCancelled : Bool := false
  flushes : List Flush := []
  nextFlush : Nat := 0

namespace Group

def fingerprint (g : Group) : Fingerprint := g.labels.fingerprint

/-- The fingerprint of the group among those of all routes. -/
def key (g : Group) : Fingerprint := g.fingerprint.combine g.route.fingerprint

/-- The time from one firing to the next. -/
def interval (g : Group) : Duration := g.route.options.groupInterval.max g.minInterval

def alerts (g : Group) : List Alert := g.holdings.alerts

def size (g : Group) : Nat := g.holdings.held.size

def isEmpty (g : Group) : Bool := g.holdings.held.isEmpty

/-- What a flush fired at a time is delivered with. -/
def contextAt (g : Group) (now : Instant) : NotifyContext where
  now := now
  groupKey := g.key
  groupLabels := g.labels
  receiver := g.route.options.receiver
  repeatInterval := g.route.options.repeatInterval

/-- Whether inserting an alert wakes the timer. -/
def escalates (g : Group) (now : Instant) (a : Alert) : Bool :=
  !g.holdings.hasSent && a.hasWaited g.route.options.groupWait now

/-- Adds an alert or replaces its last version, and wakes the timer if the alert is late. Both are
one step here, though the timer and the flushes may go on between storing the alert and the waking:
a firing in between is told as one before, and a snapshot in between as one after. -/
def insert (g : Group) (now : Instant) (a : Alert) : Group :=
  { g with
    holdings := g.holdings.insert a
    isWoken := g.isWoken || g.escalates now a }

def start (g : Group) (tick : Nat) (minInterval : Duration) : Group :=
  match g.timer with
  | .unstarted =>
    let wait := g.route.options.groupWait
    { g with
      minInterval := minInterval
      timer := if wait.exceedsClock then .ended else .armed (tick + wait.ticks) }
  | _ => g

/-- A woken timer takes notice and becomes due. -/
def wake (g : Group) (tick : Nat) : Group :=
  match g.timer with
  | .armed _ => if g.isWoken then { g with isWoken := false, timer := .armed tick } else g
  | _ => g

/-- Sets out on a flush for a wall time, which has to end by a tick. It has yet to begin. -/
def openFlush (g : Group) (now : Instant) (deadline : Nat) : Group :=
  { g with
    flushes := g.flushes ++ [{ number := g.nextFlush, context := g.contextAt now, deadline }]
    nextFlush := g.nextFlush + 1 }

/-- The timer fires if it is due. The firing takes notice of a pending wake-up as well, and the next
one is set before the flush begins. -/
def fire (g : Group) (m : Moment) : Group :=
  match g.timer with
  | .armed due =>
    if due ≤ m.tick then
      if g.interval.exceedsClock then { g with isWoken := false, timer := .ended }
      else
        let next := m.tick + g.interval.ticks
        { g.openFlush m.wall next with isWoken := false, timer := .armed next }
    else g
  | _ => g

/-- A flush of the group that has not ended. -/
def flush? (g : Group) (number : Nat) : Option Flush := g.flushes.find? (·.number = number)

def dropFlush (g : Group) (number : Nat) : Group :=
  { g with flushes := g.flushes.filter (·.number ≠ number) }

/-- A flush takes its snapshot, unless it has one. A flush that finds nothing, or finds the group
cancelled, ends here; the others begin a delivery. Taking the snapshot, looking for a cancellation
and beginning the delivery are one step, for the flush gives way to no other task in between. -/
def beginFlush (g : Group) (number : Nat) : Group :=
  match g.flush? number with
  | some { snapshot := none, .. } =>
    let snapshot := g.holdings.snapshot
    if snapshot.isEmpty || g.isCancelled then g.dropFlush number
    else { g with flushes := g.flushes.map (·.take number snapshot) }
  | _ => g

/-- A flush ends. Its delivery counts only if it succeeded and the group has not been cancelled.
Looking for a cancellation and settling what was delivered are one step, for the flush gives way to
no other task in between. -/
def endFlush (g : Group) (number : Nat) (delivered : Bool) : Group :=
  match g.flush? number with
  | some f =>
    match f.snapshot with
    | some snapshot =>
      if delivered ∧ ¬ g.isCancelled then
        { g.dropFlush number with holdings := g.holdings.settle snapshot f.context.now }
      else g.dropFlush number
    | none => g.dropFlush number
  | none => g

/-- Cancels the group: its timer and its flushes have to end. -/
def cancel (g : Group) : Group := { g with isCancelled := true }

/-- The timer of a cancelled group ends. -/
def endTimer (g : Group) : Group :=
  if g.isCancelled then { g with timer := .ended } else g

/-- Whether neither the timer nor a flush is running. -/
def hasEnded (g : Group) : Bool :=
  g.flushes.isEmpty &&
    match g.timer with
    | .armed _ => false
    | _ => true

/-- The ticks at which something is due by itself: the timer, and the ends of deliveries. -/
def dueTicks (g : Group) : List Nat :=
  (match g.timer with
    | .armed due => [due]
    | _ => []) ++ g.flushes.map (·.deadline)

end Group

end AlertFlow
