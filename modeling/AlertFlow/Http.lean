import AlertFlow.Http.MediaType
import AlertFlow.Http.Path
import AlertFlow.Http.Response
import AlertFlow.Server

/-!
The HTTP interface. It takes alerts, shows the overview, and records events and shows the alerts
that they name. Each endpoint is a function of what it reads, the dispatch by path and method
stands apart. A body must be declared as JSON; one that is not JSON is a bad request, one of the
wrong shape cannot be processed.
-/
namespace AlertFlow

structure Request where
  method : String
  target : String
  contentType : Option String := none
  body : String := ""

namespace Http

/-- Reads a body, or gives the answer to one that cannot be read. -/
def readBody {α : Type} (r : Request) (value : Json → Except Json.Fault α) : Except Response α :=
  if (r.contentType.map MediaType.isJson).getD false then
    match Json.decode value r.body with
    | .ok a => .ok a
    | .error .malformed => .error (.bare 400)
    | .error .mismatch => .error (.bare 422)
  else .error (.bare 415)

/-- What is wrong with a posted alert. -/
def defect? (raw : RawAlert) (now : Instant) : Option String :=
  if raw.labels.isEmpty then some "no labels"
  else
    let a := raw.toAlert now
    match a.endsAt with
    | some t => if t < a.startsAt then some "end time before start time" else none
    | none => none

/-- The alerts of a posted batch from the one of this number on, unless one has a defect. -/
def checkBatch (now : Instant) : (i : Nat) → List RawAlert → Except ApiError (List Alert)
  | _, [] => .ok []
  | i, raw :: rest =>
    match defect? raw now with
    | some reason => .error (.badRequest ("alert " ++ toString i ++ ": " ++ reason))
    | none => (checkBatch now (i + 1) rest).map (raw.toAlert now :: ·)

/-- Stores a posted batch whole, or nothing of it. -/
def postAlerts (batch : List RawAlert) (now : Instant) (store : AlertStore) :
    Response × AlertStore :=
  match checkBatch now 0 batch with
  | .ok alerts => (.ok (.record [("status", .string "success")]), store.put alerts)
  | .error e => (e.toResponse, store)

def postEvent (e : Event) (now : Instant) (log : EventLog) : Response × EventLog :=
  let (id, log) := log.add e now
  (.ok (.record [("eventId", .nat id)]), log)

def listEvents (log : EventLog) : Response :=
  match log.all with
  | .ok events => .ok (.array (events.map (·.toJson)))
  | .error e => (ApiError.ofStore e).toResponse

/-- Shows the alerts of the event that a text identifies. -/
def eventAlerts (text : String) (log : EventLog) (store : AlertStore) : Response :=
  match Decimal.readWord? text with
  | none => (ApiError.badRequest ("invalid event id: " ++ text)).toResponse
  | some id =>
    match log.alertsOf store id with
    | .ok alerts => .ok (.array (alerts.map (·.toJson)))
    | .error e => (ApiError.ofService e).toResponse

/-- The resources of the interface. -/
inductive Resource where
  | health
  | alerts
  | groups
  | events
  | alertsOfEvent (segment : String)

def resource? (target : String) : Option Resource :=
  match Path.segments target with
  | ["", "health"] => some .health
  | ["", "api", "v1", "alerts"] => some .alerts
  | ["", "api", "v1", "alerts", "groups"] => some .groups
  | ["", "api", "v1", "events"] => some .events
  | ["", "api", "v1", "events", segment, "alerts"] => some (.alertsOfEvent segment)
  | _ => none

/-- Reads a resource; nothing for one that cannot be read. -/
def get? (s : Server) (now : Instant) : Resource → Option Response
  | .health => some (.ok (.record [("status", .string "ok")]))
  | .alerts => none
  | .groups => some (.ok (s.overview now).toJson)
  | .events => some (listEvents s.events)
  | .alertsOfEvent segment =>
    some <|
      match Path.decode? segment with
      | some text => eventAlerts text s.events s.alerts
      | none => .bare 400

/-- Posts to a resource; nothing for one that cannot be posted to. -/
def post? (s : Server) (now : Instant) (r : Request) : Resource → Option (Response × Server)
  | .alerts =>
    some <|
      match readBody r (Json.asList RawAlert.ofJson) with
      | .ok batch =>
        let (response, alerts) := postAlerts batch now s.alerts
        (response, { s with alerts })
      | .error response => (response, s)
  | .events =>
    some <|
      match readBody r Event.ofJson with
      | .ok e =>
        let (response, events) := postEvent e now s.events
        (response, { s with events })
      | .error response => (response, s)
  | _ => none

/-- Answers a request that arrives at a time. -/
def handle (s : Server) (now : Instant) (r : Request) : Response × Server :=
  match resource? r.target with
  | none => (.bare 404, s)
  | some resource =>
    let answer :=
      match r.method with
      | "GET" => (get? s now resource).map fun response => (response, s)
      | "HEAD" => (get? s now resource).map fun response => (Response.withoutBody response, s)
      | "POST" => post? s now r resource
      | _ => none
    answer.getD (.bare 405, s)

end Http

end AlertFlow
