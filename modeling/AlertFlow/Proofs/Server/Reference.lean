import AlertFlow.Proofs.EventLog.Lookup
import AlertFlow.Proofs.Server.Keeping

/-!
References to alerts. A client learns the fingerprint of an alert from an overview and later records
an event that names the alert by it. Groups hold only alerts that were read from the store, and the
store forgets no fingerprint, whatever becomes of the groups; so the alerts of the event are found.
-/
namespace AlertFlow

/-! ## What a client sees of an overview -/

namespace Json

def elements : Json → List Json
  | array items => items
  | _ => []

/-- The elements of the array that an object has under a name. -/
def elementsOf (name : String) (j : Json) : List Json := ((j.get? name).map elements).getD []

/-- The text that an object has under a name. -/
def textOf? (name : String) (j : Json) : Option String :=
  match j.get? name with
  | some (string text) => some text
  | _ => none

/-- The texts by which an overview names alerts, as a client finds them in its JSON. -/
def references (j : Json) : List String :=
  j.elements.flatMap fun group => (group.elementsOf "blocks").flatMap fun block =>
    (block.elementsOf "alerts").filterMap (textOf? "fingerprint")

end Json

theorem OverviewAlert.textOf?_toJson (a : OverviewAlert) :
    a.toJson.textOf? "fingerprint" = some a.fingerprint.hex := by
  rw [Json.textOf?, a.get?_toJson]

theorem Overview.references_toJson (o : Overview) :
    o.toJson.references =
      o.flatMap fun x => x.blocks.flatMap fun b => b.alerts.map (·.fingerprint.hex) := by
  have hblock (b : OverviewBlock) : (b.toJson.elementsOf "alerts").filterMap
      (Json.textOf? "fingerprint") = b.alerts.map (·.fingerprint.hex) := by
    have helements : b.toJson.elementsOf "alerts" = b.alerts.map (·.toJson) := by
      simp [OverviewBlock.toJson, Json.elementsOf, Json.record, Json.get?, Json.elements]
    rw [helements, List.filterMap_map, ← List.filterMap_eq_map]
    exact List.filterMap_congr fun a _ => a.textOf?_toJson
  have hgroup (x : OverviewGroup) : x.toJson.elementsOf "blocks" = x.blocks.map (·.toJson) := by
    simp [OverviewGroup.toJson, Json.elementsOf, Json.record, Json.get?, Json.elements]
  show (o.map (·.toJson)).flatMap _ = _
  simp only [List.flatMap_map, hgroup, hblock]

namespace Server

/-! ## What the store keeps -/

/-- The alerts that are put by some events. -/
def Event.puts : List Event → List Alert
  | [] => []
  | .put batch :: events => batch ++ puts events
  | _ :: events => puts events

/-- The store has what was put into it, whatever else happens. -/
theorem alerts_run (s : Server) (events : List Event) :
    (s.run events).alerts = s.alerts.put (Event.puts events) := by
  induction events generalizing s with
  | nil => rfl
  | cons e events ih =>
    show ((s.react e).run events).alerts = _
    rw [ih]
    cases e with
    | put batch => exact (s.alerts.put_append batch _).symm
    | mark f => rfl
    | begin tick =>
      show (if s.engine.mainLoop.isSome then s else s.begin tick).alerts.put _ = _
      split <;> rfl
    | read m =>
      show (s.readStream m).alerts.put _ = _
      rw [alerts_readStream]
      rfl
    | endRun =>
      show s.endRun.alerts.put _ = _
      rw [alerts_endRun]
      rfl
    | engine step => rfl

theorem Event.puts_append (events events' : List Event) :
    puts (events ++ events') = puts events ++ puts events' := by
  induction events with
  | nil => rfl
  | cons e events ih =>
    cases e with
    | put batch =>
      show batch ++ puts (events ++ events') = (batch ++ puts events) ++ puts events'
      rw [ih, List.append_assoc]
    | mark | begin | read | endRun | engine => exact ih

section Runs

variable (buffer : Nat) (tree : Route) (settings : EngineSettings) (events : List Event)

/-- The store has, under each fingerprint, the alert that was put last. -/
theorem get?_run (fp : Fingerprint) :
    ((setUp buffer tree settings).run events).alerts.alerts.get? fp =
      Alert.latest? (Event.puts events) fp := by
  rw [alerts_run, AlertStore.get?_put]
  exact Option.or_none

/-- Some time comes after all events. -/
theorem exists_clock : ∃ t : Instant, ∀ e ∈ events, ∀ w ∈ e.wall?, w ≤ t := by
  induction events with
  | nil => exact ⟨⟨0, 0⟩, by simp⟩
  | cons e events ih =>
    obtain ⟨t, ht⟩ := ih
    cases hwall : e.wall? with
    | none => exact ⟨t, by simpa [hwall] using ht⟩
    | some now =>
      by_cases hnow : now ≤ t
      · exact ⟨t, by simpa [hwall, hnow] using ht⟩
      · have hlater : t ≤ now := by
          rw [Instant.le_iff] at hnow ⊢
          omega
        refine ⟨now, List.forall_mem_cons.2 ⟨?_, fun d hd w hw => ?_⟩⟩
        · simp [hwall, Instant.le_iff]
        · exact Instant.le_trans (ht d hd w hw) hlater

variable {buffer tree settings events}

/-- **What a group holds was put.** -/
theorem exists_latest?_of_heldAt? {id : RouteId} {fp f : Fingerprint} {a : Alert}
    (h : ((setUp buffer tree settings).run events).engine.heldAt? id fp f = some a) :
    ∃ b, Alert.latest? (Event.puts events) a.fingerprint = some b := by
  obtain ⟨t, clock⟩ := exists_clock events
  have hcustody := custody_run buffer tree settings events clock
  obtain ⟨haccepted, -, -⟩ := Route.mem_of_lastFiled? (hcustody.held id fp f a h)
  obtain ⟨x, hx, rfl⟩ := List.mem_map.1 haccepted
  have hmem := mem_of_read buffer tree settings events x (List.mem_of_mem_filter hx)
  rw [← get?_run buffer tree settings, stocks_run]
  exact Alert.exists_latest? hmem

end Runs

/-! ## Events that name alerts -/

/-- What happens at a server and at the event service beside it. -/
inductive Act where
  | event (e : Event)
  | record (c : EventLog.Call)

/-- What happens at the server itself. -/
def Act.events (acts : List Act) : List Event :=
  acts.filterMap fun
    | .event e => some e
    | .record _ => none

/-- The calls that record events. -/
def Act.calls (acts : List Act) : List EventLog.Call :=
  acts.filterMap fun
    | .event _ => none
    | .record c => some c

/-- The alerts that are put. -/
def Act.puts (acts : List Act) : List Alert := Event.puts (Act.events acts)

theorem Act.puts_append (acts acts' : List Act) :
    puts (acts ++ acts') = puts acts ++ puts acts' := by
  rw [puts, events, List.filterMap_append]
  exact Event.puts_append _ _

def perform (s : Server) : Act → Server
  | .event e => s.react e
  | .record c => { s with events := (s.events.add c.event c.now).2 }

def performAll (s : Server) (acts : List Act) : Server := acts.foldl perform s

/-- A client that watches a server in the course of acts may come to know an alert by a text. -/
def Names (s : Server) (acts : List Act) (text : String) : Prop :=
  ∃ past, past <+: acts ∧ ∃ now, text ∈ ((s.performAll past).overview now).toJson.references

/-- A text by which an overview names an alert is the fingerprint of one that a group holds. -/
theorem exists_heldAt?_of_mem_references {s : Server} {now : Instant} {text : String}
    (h : text ∈ (s.overview now).toJson.references) : ∃ id fp f a,
      s.engine.heldAt? id fp f = some a ∧ text = a.fingerprint.hex := by
  rw [Overview.references_toJson] at h
  obtain ⟨x, hx, h⟩ := List.mem_flatMap.1 h
  obtain ⟨b, hb, h⟩ := List.mem_flatMap.1 h
  obtain ⟨shown, hshown, rfl⟩ := List.mem_map.1 h
  obtain ⟨g, hg, a, ha, rfl⟩ := Overview.alert_of_mem_build hx hb hshown
  obtain ⟨id, fp, hplace⟩ := GroupMap.mem_toGroups.1 hg
  obtain ⟨f, hheld⟩ := Group.mem_alerts.1 ha
  exact ⟨id, fp, f, a, Engine.heldAt?_eq_some.2 ⟨g, hplace, hheld⟩, rfl⟩

/-- What happens at the server has nothing to do with the event log. -/
theorem react_with_events (s : Server) (log : EventLog) (e : Event) :
    ({ s with events := log } : Server).react e = { s.react e with events := log } := by
  cases e with
  | put batch => rfl
  | mark f => rfl
  | begin tick =>
    show (if s.engine.mainLoop.isSome then _ else _) = _
    unfold react
    split <;> rfl
  | read m =>
    obtain ⟨alerts, engine, subscription, events, marker⟩ := s
    show readStream _ m = { readStream _ m with events := log }
    unfold readStream
    dsimp only
    split
    · split <;> rfl
    · rfl
  | endRun =>
    obtain ⟨alerts, engine, subscription, events, marker⟩ := s
    show endRun _ = { endRun _ with events := log }
    unfold endRun
    dsimp only
    split
    · split <;> rfl
    · rfl
  | engine step => rfl

theorem performAll_eq (s : Server) (acts : List Act) :
    s.performAll acts =
      { s.run (Act.events acts) with events := (s.events.addAll (Act.calls acts)).2 } := by
  induction acts using List.reverseRecOn with
  | nil => rfl
  | append_singleton acts act ih =>
    have hlast : s.performAll (acts ++ [act]) = (s.performAll acts).perform act := by
      simp [performAll]
    rw [hlast, ih]
    cases act with
    | event e =>
      have hevents : Act.events (acts ++ [.event e]) = Act.events acts ++ [e] := by
        simp [Act.events]
      have hcalls : Act.calls (acts ++ [.event e]) = Act.calls acts := by simp [Act.calls]
      rw [hevents, hcalls, run_concat]
      exact react_with_events _ _ e
    | record c =>
      have hevents : Act.events (acts ++ [.record c]) = Act.events acts := by simp [Act.events]
      have hcalls : Act.calls (acts ++ [.record c]) = Act.calls acts ++ [c] := by
        simp [Act.calls]
      rw [hevents, hcalls]
      simp [perform, EventLog.addAll_eq, EventLog.add_eq]

section Runs

variable {buffer : Nat} {tree : Route} {settings : EngineSettings} {acts : List Act}

/-- A text that names an alert is the fingerprint of one that was put. -/
theorem Names.exists_latest? {text : String} (h : (setUp buffer tree settings).Names acts text) :
    ∃ fp a, text = Fingerprint.hex fp ∧ Alert.latest? (Act.puts acts) fp = some a := by
  obtain ⟨past, ⟨rest, rfl⟩, now, htext⟩ := h
  obtain ⟨id, fp, f, a, hheld, rfl⟩ := exists_heldAt?_of_mem_references htext
  rw [performAll_eq] at hheld
  -- the alert was put before it was shown, and nothing takes its fingerprint out of the store
  obtain ⟨b, hb⟩ := exists_latest?_of_heldAt? hheld
  have hlast : Alert.latest? (Act.puts (past ++ rest)) a.fingerprint =
      (Alert.latest? (Act.puts rest) a.fingerprint).or (some b) := by
    rw [Act.puts_append, Alert.latest?_append, ← hb]
    rfl
  rw [Option.or_some] at hlast
  exact ⟨a.fingerprint, _, rfl, hlast⟩

end Runs

/-- Texts that name alerts are the fingerprints of alerts, in the same order. -/
theorem exists_found {texts : List String} {l : List Alert}
    (h : ∀ text ∈ texts, ∃ fp a, text = Fingerprint.hex fp ∧ Alert.latest? l fp = some a) :
    ∃ (fingerprints : List Fingerprint) (found : List Alert),
      texts = fingerprints.map Fingerprint.hex ∧
        fingerprints.map (Alert.latest? l) = found.map some := by
  induction texts with
  | nil => exact ⟨[], [], rfl, rfl⟩
  | cons text texts ih =>
    obtain ⟨⟨fp, a, rfl, ha⟩, hrest⟩ := List.forall_mem_cons.1 h
    obtain ⟨fingerprints, found, rfl, hfound⟩ := ih hrest
    refine ⟨fp :: fingerprints, a :: found, rfl, ?_⟩
    rw [List.map_cons, ha, hfound, List.map_cons]

/-- **A fingerprint that was shown stays usable.** In the course of a server's run an event is
recorded that lists, in any order and with any repetitions, texts by which alerts were named in
overviews up to then. Whatever happens later, the alerts of the event are found: those put last
under the fingerprints that the texts stand for. -/
theorem shown_fingerprints_found (buffer : Nat) (tree : Route) (settings : EngineSettings)
    (earlier later : List Act) (c : EventLog.Call) (valid : c.Valid)
    (room : (Act.calls earlier).length + 1 < signedLimit)
    (named : ∀ text ∈ c.event.alerts, (setUp buffer tree settings).Names earlier text) :
    let id := (((setUp buffer tree settings).performAll earlier).events.add c.event c.now).1
    let s := (setUp buffer tree settings).performAll (earlier ++ .record c :: later)
    ∃ (fingerprints : List Fingerprint) (found : List Alert),
      c.event.alerts = fingerprints.map Fingerprint.hex ∧
        s.events.alertsOf s.alerts id = .ok found ∧
        fingerprints.map (Alert.latest? (Act.puts (earlier ++ later))) = found.map some := by
  intro id s
  have hputs : Act.puts (earlier ++ .record c :: later) = Act.puts (earlier ++ later) := by
    simp [Act.puts, Act.events]
  have hnamed : ∀ text ∈ c.event.alerts, ∃ fp a, text = Fingerprint.hex fp ∧
      Alert.latest? (Act.puts (earlier ++ later)) fp = some a := by
    intro text htext
    obtain ⟨past, hpast, hshown⟩ := named text htext
    exact Names.exists_latest? ⟨past, hpast.trans (List.prefix_append earlier later), hshown⟩
  obtain ⟨fingerprints, found, htexts, hfound⟩ := exists_found hnamed
  refine ⟨fingerprints, found, htexts, ?_, hfound⟩
  have hid : id = ((Act.calls earlier).map EventLog.Call.row).length + 1 := by
    simp [id, performAll_eq, EventLog.addAll_eq, EventLog.add_eq, setUp]
  have hrows : s.events.rows = (Act.calls earlier).map EventLog.Call.row ++
      c.row :: (Act.calls later).map EventLog.Call.row := by
    simp [s, performAll_eq, EventLog.addAll_eq, setUp, Act.calls]
  have hget : s.events.get id = .ok (c.kept id) := by
    rw [hid]
    refine EventLog.get_of_rows valid hrows ?_
    rwa [List.length_map]
  have hstore : s.alerts.alerts.get? = Alert.latest? (Act.puts (earlier ++ later)) := by
    funext fp
    rw [← hputs]
    show (performAll _ _).alerts.alerts.get? fp = _
    rw [performAll_eq]
    exact get?_run buffer tree settings _ fp
  rw [← hstore] at hfound
  exact EventLog.alertsOf_eq hget htexts hfound

/-- A page comes in and is grouped. -/
def pagedRun : List Act :=
  [.event (.put [alertOf "page" none]), .event (.begin 0), .event (.read ⟨0, ⟨0, 0⟩⟩)]

/-- The page is delivered, ends and is delivered again, so that its group is swept away; then the
main loop is stopped and begins anew. -/
def sweptRun : List Act :=
  [.event (.engine (.group 0 (.fire ⟨30000, ⟨30, 0⟩⟩))),
    .event (.engine (.group 0 (.beginFlush 0))), .event (.engine (.group 0 (.endFlush 0 true))),
    .event (.put [alertOf "page" (some ⟨40, 0⟩)]), .event (.read ⟨50000, ⟨50, 0⟩⟩),
    .event (.engine (.group 0 (.fire ⟨330000, ⟨330, 0⟩⟩))),
    .event (.engine (.group 0 (.beginFlush 1))), .event (.engine (.group 0 (.endFlush 1 true))),
    .event (.engine (.startSweep 400000)), .event (.engine .stepSweep),
    .event (.engine .stepSweep), .event (.engine (.group 0 .endTimer)),
    .event (.engine .stepSweep), .event (.engine .stepSweep), .event (.engine .stop),
    .event .endRun, .event (.begin 500000)]

/-- A note on the page, which is listed twice. -/
def pageNote : AlertFlow.Event where
  alerts := ["d21d88b5188da414", "d21d88b5188da414"]
  comment := "the same outage"

/-- No group is left when the note is taken, and its alerts are found after the page has come in
once more. -/
theorem swept_page_found :
    let s := (setUp 8 dutyTree {}).performAll (pagedRun ++ sweptRun)
    let s' := (setUp 8 dutyTree {}).performAll (pagedRun ++ sweptRun ++
      .record ⟨pageNote, ⟨600, 0⟩⟩ :: [.event (.put [alertOf "page" none])])
    s.engine.groups.toGroups.isEmpty = true ∧ ∃ found,
      s'.events.alertsOf s'.alerts (s.events.add pageNote ⟨600, 0⟩).1 = .ok found ∧
        found.length = 2 := by
  intro s s'
  have hshown : "d21d88b5188da414" ∈
      (((setUp 8 dutyTree {}).performAll pagedRun).overview ⟨1, 0⟩).toJson.references := by
    decide +kernel
  have hnames : (setUp 8 dutyTree {}).Names (pagedRun ++ sweptRun) "d21d88b5188da414" :=
    ⟨pagedRun, List.prefix_append _ _, ⟨1, 0⟩, hshown⟩
  have hvalid : EventLog.Call.Valid ⟨pageNote, ⟨600, 0⟩⟩ :=
    ⟨by decide, fun t ht => (by cases ht), by decide⟩
  obtain ⟨fingerprints, found, htexts, halerts, hfound⟩ :=
    shown_fingerprints_found 8 dutyTree {} (pagedRun ++ sweptRun)
      [.event (.put [alertOf "page" none])] ⟨pageNote, ⟨600, 0⟩⟩ hvalid (by decide +kernel)
      (by simpa [pageNote] using hnames)
  have htwo : found.length = 2 := by
    have hlisted := congrArg List.length htexts
    have hlength := congrArg List.length hfound
    simp only [List.length_map] at hlisted hlength
    rw [← hlength, ← hlisted]
    rfl
  exact ⟨by decide +kernel, found, halerts, htwo⟩

end Server

end AlertFlow
