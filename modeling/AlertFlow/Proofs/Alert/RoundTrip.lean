import AlertFlow.Proofs.Json.RoundTrip
import AlertFlow.Proofs.Overview
import AlertFlow.Proofs.Time.Timestamp

/-!
Alerts and their JSON. An alert is read back from its own text, whatever its labels say and whenever
it starts and ends. An overview writes the marks of an alert behind the alert's members, in the same
object. The reader of alerts knows none of their names and passes over them, so an alert is read
back from an overview as well, next to the fingerprint of its labels.
-/
namespace AlertFlow

open Json

namespace Alert

/-- An alert whose start and end are times that the reader of times can give. -/
structure Timed (a : Alert) : Prop where
  startsAt : ∃ text, Timestamp.read? text = some a.startsAt
  endsAt : ∀ t ∈ a.endsAt, ∃ text, Timestamp.read? text = some t

/-- The members of the object that is written for an alert. -/
def members (a : Alert) : List (String × Json) :=
  [("labels", .labels a.labels), ("annotations", .labels a.annotations),
    ("startsAt", .string (Timestamp.write a.startsAt))] ++
  (a.endsAt.map fun t => ("endsAt", Json.string (Timestamp.write t))).toList ++
  (a.generatorUrl.map fun url => ("generatorURL", Json.string url)).toList

theorem toJson_eq (a : Alert) : a.toJson = record a.members := rfl

theorem written_members (a : Alert) : ∀ m ∈ a.members, m.2.Written := by
  intro m hm
  rcases List.mem_append.1 hm with hm | hm
  · rcases List.mem_append.1 hm with hm | hm
    · simp only [List.mem_cons, List.not_mem_nil, or_false] at hm
      rcases hm with rfl | rfl | rfl
      · exact .labels a.labels
      · exact .labels a.annotations
      · exact .string _
    · obtain ⟨t, -, rfl⟩ := Option.map_eq_some_iff.1 (Option.mem_toList.1 hm)
      exact .string _
  · obtain ⟨url, -, rfl⟩ := Option.map_eq_some_iff.1 (Option.mem_toList.1 hm)
    exact .string url

/-- The fields of the object that is written for an alert. -/
def Fields.of (a : Alert) : Fields where
  labels := some a.labels
  annotations := some a.annotations
  startsAt := some a.startsAt
  endsAt := a.endsAt.map some
  generatorUrl := a.generatorUrl.map some

theorem collect_members {a : Alert} (h : a.Timed) :
    recordReader.collect {} (record a.members) = .ok (.of a) := by
  obtain ⟨labels, annotations, startsAt, endsAt, generatorUrl⟩ := a
  have htime {t : Instant} (ht : ∃ text, Timestamp.read? text = some t) :
      asText Timestamp.read? (.string (Timestamp.write t)) = .ok t :=
    asText_string (Timestamp.read?_write (Timestamp.readable_iff.1 ht))
  refine RecordReader.collect_fill rfl (asLabels_labels labels) (fun _ => rfl) ?_
  refine RecordReader.collect_fill rfl (asLabels_labels annotations) (fun _ => rfl) ?_
  refine RecordReader.collect_fill rfl (htime h.startsAt) (fun _ => rfl) ?_
  have hurl (url : String) := asOptional_string (asString_string url)
  cases endsAt with
  | none =>
    cases generatorUrl with
    | none => rfl
    | some url => exact RecordReader.collect_fill rfl (hurl url) (fun _ => rfl) rfl
  | some t =>
    have hend := asOptional_string (htime (h.endsAt t rfl))
    refine RecordReader.collect_fill rfl hend (fun _ => rfl) ?_
    cases generatorUrl with
    | none => rfl
    | some url => exact RecordReader.collect_fill rfl (hurl url) (fun _ => rfl) rfl

/-- An alert is read back from its members, whatever stands behind them under other names. -/
theorem ofJson_members {a : Alert} (h : a.Timed) {extra : List (String × Json)}
    (hextra : ∀ m ∈ extra, recordReader.names.contains m.1 = false ∧ m.2.isWhole = true) :
    ofJson (record (a.members ++ extra)) = .ok a := by
  rw [ofJson, RecordReader.collect_append_unknown hextra, collect_members h]
  obtain ⟨labels, annotations, startsAt, _ | endsAt, _ | generatorUrl⟩ := a <;> rfl

end Alert

/-! ## Alerts in an overview -/

namespace OverviewAlert

/-- The members that are written behind those of the alert. -/
def marks (e : OverviewAlert) : List (String × Json) :=
  [("fingerprint", .string e.fingerprint.hex), ("inhibited", .bool e.isInhibited)] ++
    if e.silence = 0 then [] else [("silenced", .nat e.silence)]

theorem toJson_eq (e : OverviewAlert) : e.toJson = record (e.alert.members ++ e.marks) := by
  simp only [toJson, marks, record, List.map_append]
  rfl

theorem of_mem_marks {e : OverviewAlert} {m : String × Json} (h : m ∈ e.marks) :
    m.2.Written ∧ Alert.recordReader.names.contains m.1 = false ∧ m.2.isWhole = true := by
  unfold marks at h
  rcases List.mem_append.1 h with h | h
  · simp only [List.mem_cons, List.not_mem_nil, or_false] at h
    rcases h with rfl | rfl
    · exact ⟨.string _, rfl, rfl⟩
    · exact ⟨.bool _, rfl, rfl⟩
  · split at h
    · cases h
    · obtain rfl := List.mem_singleton.1 h
      exact ⟨.nat e.silence, rfl, rfl⟩

theorem written_toJson (e : OverviewAlert) : e.toJson.Written := by
  rw [toJson_eq]
  refine .record fun m hm => ?_
  rcases List.mem_append.1 hm with hm | hm
  · exact e.alert.written_members m hm
  · exact (of_mem_marks hm).1

end OverviewAlert

namespace Alert

/-- **An alert is read back**, from its own text and from that of any entry that shows it, with
whatever marks. In an overview the fingerprint in the text of an entry is that of the labels. -/
theorem reads_back {a : Alert} (h : a.Timed) :
    Json.decode ofJson a.toJson.write = .ok a ∧
      (∀ e : OverviewAlert, e.alert = a → Json.decode ofJson e.toJson.write = .ok a) ∧
      ∀ groups marker now, ∀ x ∈ Overview.build groups marker now, ∀ b ∈ x.blocks,
        ∀ e ∈ b.alerts, e.alert = a →
          (Json.read e.toJson.write).value.get? "fingerprint" =
            some (.string a.labels.fingerprint.hex) := by
  refine ⟨?_, fun e he => ?_, fun groups marker now x hx b hb e he hshown => ?_⟩
  · rw [toJson_eq, Json.decode_write ofJson (.record a.written_members),
      ← List.append_nil a.members]
    exact ofJson_members h (List.forall_mem_nil _)
  · subst he
    rw [Json.decode_write ofJson e.written_toJson, e.toJson_eq]
    exact ofJson_members h fun m hm => (OverviewAlert.of_mem_marks hm).2
  · subst hshown
    obtain ⟨-, -, a, -, rfl⟩ := Overview.alert_of_mem_build hx hb he
    rw [Json.read_write (OverviewAlert.written_toJson _)]
    exact OverviewAlert.get?_toJson _

/-- An alert with control characters and a label without a name. It starts in the leap second that
ends the year before the year 0 and ends in the one that ends the last year there is. -/
def longest : Alert where
  labels := .ofList [("name", "tab\tquote\"slash\\delete\x7f𝔘"), ("", "null\u0000")]
  annotations := .ofList [("\u001f", "\u2028")]
  startsAt := ⟨(Date.mk (-1) 12 31).toDays * 86400 + 86399, 1123456789⟩
  endsAt := some ⟨(Date.mk 262142 12 31).toDays * 86400 + 86399, 1000000000⟩
  generatorUrl := some ""

/-- A group that holds this alert only. -/
def longestGroup : Group where
  labels := .empty
  route :=
    { id := ⟨0⟩, matchers := .empty, continues := false, children := [],
      options :=
        { receiver := "", groupWait := .zero, groupInterval := .zero, repeatInterval := .zero } }
  serial := 0
  holdings := ({} : Holdings).insert longest

theorem longest_reads_back :
    Json.decode ofJson longest.toJson.write = .ok longest ∧
      ∃ x ∈ Overview.build [longestGroup] {} ⟨0, 0⟩, ∃ b ∈ x.blocks, ∃ e ∈ b.alerts,
        Json.decode ofJson e.toJson.write = .ok longest ∧
          (Json.read e.toJson.write).value.get? "fingerprint" =
            some (.string longest.labels.fingerprint.hex) := by
  have htimed : longest.Timed := by
    refine ⟨Timestamp.readable_iff.2 (by decide), fun t ht => Timestamp.readable_iff.2 ?_⟩
    cases ht
    decide
  obtain ⟨hown, hentry, hshown⟩ := reads_back htimed
  have hheld : longest ∈ longestGroup.alerts := List.mem_singleton.2 rfl
  have hfiring : longest.isFiringAt ⟨0, 0⟩ = true := by decide
  obtain ⟨x, hx, b, hb, he⟩ :=
    Overview.exists_mem_build (List.mem_singleton.2 rfl) hheld hfiring
  exact ⟨hown, x, hx, b, hb, _, he, hentry _ rfl, hshown _ _ _ x hx b hb _ he rfl⟩

end Alert

end AlertFlow
