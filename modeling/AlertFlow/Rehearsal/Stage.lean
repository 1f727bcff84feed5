import AlertFlow.Group

/-!
Rehearsals: runs on a virtual clock, with receivers that act by a script. The clock stands still
while anything can happen, and then jumps to the next tick at which something is due. Of the orders
that are possible within one tick a rehearsal takes one: deliveries end, then the timer is woken,
then it fires, then the flush begins.
-/
namespace AlertFlow.Rehearsal

/-- How a delivery turns out. -/
inductive Outcome where
  | succeeds
  | fails
  | refuses
  /-- Never, until it is abandoned. -/
  | hangs

/-- What a receiver does with a delivery. -/
structure Script where
  outcome : Outcome := .succeeds
  delay : Nat := 0

/-- The scripts of receivers, and the one for receivers without their own. -/
structure Receivers where
  others : Script := {}
  scripts : Table String Script := .empty

def Receivers.script (r : Receivers) (name : String) : Script :=
  (r.scripts.get? name).getD r.others

/-- Changes the script of a receiver, or of those without their own. -/
def Receivers.set (r : Receivers) (name : Option String) (s : Script) : Receivers :=
  match name with
  | some name => { r with scripts := r.scripts.insert name s }
  | none => { r with others := s }

/-- How a delivery ended. -/
inductive Ending where
  | delivered
  | failed (e : NotifyError)
  | dropped
deriving DecidableEq

def Ending.text : Ending → String
  | delivered => "ok"
  | failed e => e.message
  | dropped => "dropped"

/-- The end that an outcome leads to. -/
def Outcome.ending : Outcome → Ending
  | succeeds => .delivered
  | fails => .failed (.deliveryFailed "boom")
  | refuses => .failed .invalidTarget
  | hangs => .dropped

/-- A delivery that is under way. -/
structure Delivery where
  serial : Nat
  number : Nat
  /-- The tick at which the receiver is done, if it ever is. -/
  endsAt : Option Nat
  ending : Ending

/-- What is logged of a delivery. -/
inductive Occurrence where
  | began (context : NotifyContext) (alerts : List Alert)
  | ended (ending : Ending)

structure LogEntry where
  tick : Nat
  route : RouteId
  receiver : String
  labels : LabelSet
  occurrence : Occurrence

/-- What surrounds the groups in a rehearsal. -/
structure Stage where
  receivers : Receivers := {}
  underWay : List Delivery := []
  log : List LogEntry := []

namespace Stage

def note (st : Stage) (tick : Nat) (g : Group) (o : Occurrence) : Stage :=
  { st with
    log := st.log ++
      [{ tick, route := g.route.id, receiver := g.route.options.receiver, labels := g.labels,
         occurrence := o }] }

/-- The delivery of a flush, if it is under way. -/
def delivery? (st : Stage) (g : Group) (number : Nat) : Option Delivery :=
  st.underWay.find? fun d => d.serial = g.serial ∧ d.number = number

/-- The ticks at which deliveries of a group end by themselves. -/
def dueTicks (st : Stage) (g : Group) : List Nat :=
  (st.underWay.filter (·.serial = g.serial)).filterMap (·.endsAt)

def finish (st : Stage) (tick : Nat) (g : Group) (number : Nat) (ending : Ending) : Stage × Group :=
  let st := { st with
    underWay := st.underWay.filter fun d => !(d.serial = g.serial ∧ d.number = number) }
  (st.note tick g (.ended ending), g.endFlush number (ending = .delivered))

/-- How the delivery of a flush ends by a tick, if it does. -/
def ending? (st : Stage) (tick : Nat) (g : Group) (f : Flush) : Option Ending :=
  if g.isCancelled then some .dropped
  else
    match st.delivery? g f.number with
    | some d =>
      if (d.endsAt.map (decide <| · ≤ tick)).getD false then some d.ending
      else if f.deadline ≤ tick then some .dropped
      else none
    | none => none

/-- Ends the deliveries of a group that are due to end. -/
def endDeliveries (st : Stage) (tick : Nat) (g : Group) : Stage × Group :=
  g.flushes.foldl (fun (st, g) f =>
    match st.ending? tick g f with
    | some ending => st.finish tick g f.number ending
    | none => (st, g)) (st, g)

/-- Begins the delivery of a flush, which may end at once. -/
def deliver (st : Stage) (m : Moment) (g : Group) (number : Nat) : Stage × Group :=
  let g := g.beginFlush number
  match g.flush? number with
  | some f =>
    let alerts := (f.snapshot.getD []).map (·.2.alert)
    let st := st.note m.tick g (.began f.context alerts)
    let script := st.receivers.script f.context.receiver
    match script.outcome with
    | .hangs =>
      ({ st with underWay := st.underWay ++ [⟨g.serial, number, none, .dropped⟩] }, g)
    | outcome =>
      if script.delay = 0 then st.finish m.tick g number outcome.ending
      else
        let d := ⟨g.serial, number, some (m.tick + script.delay), outcome.ending⟩
        ({ st with underWay := st.underWay ++ [d] }, g)
  | none => (st, g)

/-- Lets everything happen at a group that can happen at a moment. -/
def settle (st : Stage) (m : Moment) (g : Group) : Stage × Group :=
  let (st, g) := st.endDeliveries m.tick g
  if g.isCancelled then (st, g.endTimer)
  else
    let g := g.wake m.tick
    let number := g.nextFlush
    let g := g.fire m
    if g.nextFlush = number then (st, g) else st.deliver m g number

end Stage

/-- The first tick after `now` and not after `limit` at which something is due. -/
def nextDue (now limit : Nat) (due : List Nat) : Option Nat :=
  (due.filter fun d => now < d && d ≤ limit).min?

/-- Moves the clock to a tick, letting things happen at each tick on the way at which something is
due. Fuel is the way to go. -/
def advance {σ : Type} (due : σ → List Nat) (settleAt : Nat → σ → σ) :
    (fuel now limit : Nat) → σ → σ
  | 0, _, _, s => s
  | fuel + 1, now, limit, s =>
    match nextDue now limit (due s) with
    | some tick => advance due settleAt fuel tick limit (settleAt tick s)
    | none => s

end AlertFlow.Rehearsal
