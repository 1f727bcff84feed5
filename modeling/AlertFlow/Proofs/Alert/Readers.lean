import AlertFlow.Alert
import AlertFlow.Proofs.Json.Record

/-!
The two readers of alerts. Alerts and raw alerts are read from records of the same fields, which
differ in one point: the start of a raw alert may be missing or null. So whatever the reader of
alerts takes, the other one takes with the same values, and what only the other one takes becomes an
alert once a start is put in its place.
-/
namespace AlertFlow

open Json

/-! ## A start put in its place -/

/-- A member of a record with a start in the place of a null. -/
def RawAlert.startMember (text : String) (m : Option String × Json) : Option String × Json :=
  match m with
  | (some "startsAt", .null) => (some "startsAt", .string text)
  | m => m

/-- A record with a start in the place of a missing one or of a null. In the positional form the
annotations stand in front of the start, and where they are missing they are filled in with it. -/
def RawAlert.withStart (text : String) : Json → Json
  | .object members =>
    if members.any fun m => m.1 == some "startsAt" then
      .object (members.map (RawAlert.startMember text))
    else .object (members ++ [(some "startsAt", .string text)])
  | .array [labels] => .array [labels, .object [], .string text]
  | .array [labels, annotations] => .array [labels, annotations, .string text]
  | .array (labels :: annotations :: .null :: rest) =>
    .array (labels :: annotations :: .string text :: rest)
  | j => j

/-! ## From fields to alerts -/

/-- The alert that has these fields. -/
def Alert.Fields.close (f : Alert.Fields) : Except Fault Alert := do
  return {
    labels := ← Json.require f.labels
    annotations := f.annotations.getD .empty
    startsAt := ← Json.require f.startsAt
    endsAt := f.endsAt.join
    generatorUrl := f.generatorUrl.join }

theorem Alert.ofJson_eq (j : Json) :
    Alert.ofJson j = (Alert.recordReader.collect {} j).bind Alert.Fields.close := rfl

namespace RawAlert

/-- The raw alert that has these fields. -/
def Fields.close (f : Fields) : Except Fault RawAlert := do
  return {
    labels := ← Json.require f.labels
    annotations := f.annotations.getD .empty
    startsAt := f.startsAt.join
    endsAt := f.endsAt.join
    generatorUrl := f.generatorUrl.join }

theorem ofJson_eq (j : Json) : ofJson j = (recordReader.collect {} j).bind Fields.close := rfl

/-- The fields of an alert, a start that is null being some time. -/
def Fields.started (now : Instant) (f : Fields) : Alert.Fields where
  labels := f.labels
  annotations := f.annotations
  startsAt := f.startsAt.map (·.getD now)
  endsAt := f.endsAt
  generatorUrl := f.generatorUrl

/-- Fields whose start, if there is one, is no null. -/
def Fields.Strict (f : Fields) : Prop := f.startsAt ≠ some none

theorem strict_of_none {f : Fields} (h : f.startsAt = none) : f.Strict := by
  rw [Fields.Strict, h]
  exact nofun

theorem close_started (now : Instant) {f : Fields} (h : f.startsAt ≠ none) :
    (f.started now).close = f.close.map (·.toAlert now) := by
  obtain ⟨_ | labels, annotations, _ | startsAt, endsAt, generatorUrl⟩ := f
  · rfl
  · rfl
  · exact absurd rfl h
  · rfl

theorem startsAt_of_close {f : Fields} {r : RawAlert} (h : f.close = .ok r) :
    r.startsAt = f.startsAt.join := by
  obtain ⟨_ | labels, annotations, startsAt, endsAt, generatorUrl⟩ := f
  · cases h
  · cases h
    rfl

theorem close_started_eq_ok (now : Instant) {f : Fields} (h : f.Strict) {a : Alert} :
    (f.started now).close = .ok a ↔
      ∃ r, f.close = .ok r ∧ r.startsAt.isSome = true ∧ r.toAlert now = a := by
  cases hstart : f.startsAt with
  | none =>
    have herror : (f.started now).close = .error .mismatch := by
      obtain ⟨_ | labels, annotations, startsAt, endsAt, generatorUrl⟩ := f <;> cases hstart <;> rfl
    constructor
    · intro hclose
      rw [herror] at hclose
      cases hclose
    · rintro ⟨r, hr, hgiven, -⟩
      rw [startsAt_of_close hr, hstart] at hgiven
      cases hgiven
  | some start =>
    obtain ⟨t, rfl⟩ : ∃ t, start = some t :=
      Option.ne_none_iff_exists'.1 fun hnull => h (hnull ▸ hstart)
    rw [close_started now (by rw [hstart]; exact Option.some_ne_none _), map_eq_ok]
    constructor
    · rintro ⟨r, hr, ha⟩
      exact ⟨r, hr, by rw [startsAt_of_close hr, hstart]; rfl, ha⟩
    · rintro ⟨r, hr, -, ha⟩
      exact ⟨r, hr, ha⟩

/-! ## Field by field -/

section Steps

variable {name text : String} {now : Instant} {j : Json} {f f' : Fields}

theorem asOptional_of_ne_null {α : Type} (value : Json → Except Fault α) (h : j ≠ .null) :
    asOptional value j = (value j).map some := by
  cases j <;> first | rfl | exact absurd rfl h

theorem fill_started {value : Json → Except Fault Instant} (slot : Option (Option Instant))
    (h : j ≠ .null) :
    fill (slot.map (·.getD now)) value j =
      (fill slot (asOptional value) j).map (Option.map (·.getD now)) := by
  unfold fill
  rw [asOptional_of_ne_null value h]
  cases slot with
  | some s => rfl
  | none => cases value j <;> rfl

/-- The two readers take in a field alike, unless it is a start that is null. -/
theorem field_started (h : name ≠ "startsAt" ∨ j ≠ .null) (f : Fields) :
    Alert.Fields.read name j (f.started now) = (Fields.read name j f).map (·.started now) := by
  obtain ⟨labels, annotations, startsAt, endsAt, generatorUrl⟩ := f
  unfold Alert.Fields.read Fields.read
  dsimp only [Fields.started]
  split
  · cases fill labels asLabels j <;> rfl
  · cases fill annotations asLabels j <;> rfl
  · rw [fill_started startsAt (h.resolve_left (fun hne => hne rfl))]
    cases fill startsAt (asOptional (asText Timestamp.read?)) j <;> rfl
  · cases fill endsAt (asOptional (asText Timestamp.read?)) j <;> rfl
  · cases fill generatorUrl (asOptional asString) j <;> rfl
  · rfl

/-- A start that is null is taken in as a given one is. -/
theorem field_null (htext : Timestamp.read? text = some now) (f : Fields) :
    Alert.Fields.read "startsAt" (.string text) (f.started now) =
      (Fields.read "startsAt" .null f).map (·.started now) := by
  obtain ⟨labels, annotations, startsAt, endsAt, generatorUrl⟩ := f
  cases startsAt with
  | some s => rfl
  | none =>
    have hread : asText Timestamp.read? (.string text) = .ok now := by
      simp only [asText, asString, bind, Except.bind, htext]
    show Except.bind (fill none (asText Timestamp.read?) (.string text)) _ = _
    rw [fill, hread]
    rfl

theorem startsAt_of_other (hname : name ≠ "startsAt") (h : Fields.read name j f = .ok f') :
    f'.startsAt = f.startsAt := by
  unfold Fields.read at h
  split at h
  · obtain ⟨labels, -, h⟩ := bind_eq_ok.1 h
    cases h
    rfl
  · obtain ⟨annotations, -, h⟩ := bind_eq_ok.1 h
    cases h
    rfl
  · exact absurd rfl hname
  · obtain ⟨endsAt, -, h⟩ := bind_eq_ok.1 h
    cases h
    rfl
  · obtain ⟨generatorUrl, -, h⟩ := bind_eq_ok.1 h
    cases h
    rfl
  · cases h
    rfl

/-- A start is taken in once. -/
theorem strict_of_start (h : Fields.read "startsAt" j f = .ok f') :
    f.startsAt = none ∧ (f'.Strict ↔ j ≠ .null) := by
  obtain ⟨slot, hfill, h⟩ := bind_eq_ok.1 (show Except.bind _ _ = _ from h)
  cases h
  unfold fill at hfill
  split at hfill
  · cases hfill
  · next hslot =>
    refine ⟨Option.not_isSome_iff_eq_none.1 hslot, ?_⟩
    by_cases hnull : j = .null
    · subst hnull
      cases hfill
      simp [Fields.Strict]
    · rw [asOptional_of_ne_null _ hnull] at hfill
      obtain ⟨value, hvalue, rfl⟩ := map_eq_ok.1 hfill
      obtain ⟨t, -, rfl⟩ := map_eq_ok.1 hvalue
      simp [Fields.Strict, hnull]

theorem strict_of_read (h : Fields.read name j f = .ok f') (hstrict : f'.Strict) : f.Strict := by
  by_cases hname : name = "startsAt"
  · subst hname
    exact strict_of_none (strict_of_start h).1
  · rw [Fields.Strict, ← startsAt_of_other hname h]
    exact hstrict

/-- The reader of alerts takes in a field if the other one does, and no start is null by it. -/
theorem field_started_iff (hstrict : f.Strict) {g : Alert.Fields} :
    Alert.Fields.read name j (f.started now) = .ok g ↔
      ∃ f', Fields.read name j f = .ok f' ∧ f'.Strict ∧ f'.started now = g := by
  by_cases hnull : name = "startsAt" ∧ j = .null
  · obtain ⟨rfl, rfl⟩ := hnull
    constructor
    · intro h
      obtain ⟨slot, hfill, -⟩ := bind_eq_ok.1 (show Except.bind _ _ = _ from h)
      unfold fill at hfill
      split at hfill <;> cases hfill
    · rintro ⟨f', hread, hstrict', -⟩
      exact absurd rfl ((strict_of_start hread).2.1 hstrict')
  · have hgiven : name ≠ "startsAt" ∨ j ≠ .null := not_and_or.1 hnull
    rw [field_started hgiven, map_eq_ok]
    constructor
    · rintro ⟨f', hread, hview⟩
      refine ⟨f', hread, ?_, hview⟩
      by_cases hname : name = "startsAt"
      · subst hname
        exact (strict_of_start hread).2.2 (hgiven.resolve_left (fun hne => hne rfl))
      · rw [Fields.Strict, startsAt_of_other hname hread]
        exact hstrict
    · rintro ⟨f', hread, -, hview⟩
      exact ⟨f', hread, hview⟩

end Steps

/-! ## Whole records -/

/-- The reader of alerts takes what the other one takes with a start that is given. -/
theorem ofJson_eq_ok_iff (j : Json) (now : Instant) (a : Alert) :
    Alert.ofJson j = .ok a ↔
      ∃ r, ofJson j = .ok r ∧ r.startsAt.isSome = true ∧ r.toAlert now = a := by
  have hcollect : ∀ g, Alert.recordReader.collect {} j = .ok g ↔
      ∃ f, recordReader.collect {} j = .ok f ∧ f.Strict ∧ f.started now = g := fun g =>
    RecordReader.collect_eq_ok_iff (r := recordReader) (Fields.started now) (P := Fields.Strict) rfl
      (fun _ _ _ _ h => strict_of_read h) (fun _ _ _ _ h => field_started_iff h)
      (d := {}) (strict_of_none rfl) j
  rw [Alert.ofJson_eq, ofJson_eq, bind_eq_ok]
  constructor
  · rintro ⟨g, hg, hclose⟩
    obtain ⟨f, hf, hstrict, rfl⟩ := (hcollect g).1 hg
    obtain ⟨r, hr, hgiven⟩ := (close_started_eq_ok now hstrict).1 hclose
    exact ⟨r, bind_eq_ok.2 ⟨f, hf, hr⟩, hgiven⟩
  · rintro ⟨r, hr, hgiven, ha⟩
    obtain ⟨f, hf, hclose⟩ := bind_eq_ok.1 hr
    have hstrict : f.Strict := by
      intro hnull
      rw [startsAt_of_close hclose, hnull] at hgiven
      cases hgiven
    exact ⟨f.started now, (hcollect _).2 ⟨f, hf, hstrict, rfl⟩,
      (close_started_eq_ok now hstrict).2 ⟨r, hclose, hgiven, ha⟩⟩

/-! ## A missing start -/

section Start

variable {text : String} {now : Instant} {members : List (Option String × Json)} {f f' : Fields}

theorem isSome_startsAt_of_read {name : String} {j : Json} (h : Fields.read name j f = .ok f') :
    f'.startsAt.isSome = (f.startsAt.isSome || name == "startsAt") := by
  by_cases hname : name = "startsAt"
  · subst hname
    obtain ⟨slot, hfill, h⟩ := bind_eq_ok.1 (show Except.bind _ _ = _ from h)
    cases h
    obtain ⟨-, value, -, rfl⟩ := fill_eq_ok.1 hfill
    simp
  · simp [startsAt_of_other hname h, hname]

theorem isSome_startsAt_of_takeMember {m : Option String × Json}
    (h : recordReader.takeMember f m = .ok f') :
    f'.startsAt.isSome = (f.startsAt.isSome || m.1 == some "startsAt") := by
  obtain ⟨_ | name, j⟩ := m
  · cases h
  · cases hknown : recordReader.names.contains name with
    | true =>
      rw [RecordReader.takeMember_known hknown] at h
      exact isSome_startsAt_of_read h
    | false =>
      rw [RecordReader.takeMember_unknown hknown] at h
      have hname : name ≠ "startsAt" := by
        rintro rfl
        cases hknown
      split at h
      · cases h
        simp [hname]
      · cases h

theorem startMember_of_ne {m : Option String × Json} (h : m ≠ (some "startsAt", .null)) :
    startMember text m = m := by
  unfold startMember
  split
  · exact absurd rfl h
  · rfl

/-- A member is taken in alike by the two readers once its start is filled in. -/
theorem takeMember_startMember (htext : Timestamp.read? text = some now)
    (m : Option String × Json) (f : Fields) :
    Alert.recordReader.takeMember (f.started now) (startMember text m) =
      (recordReader.takeMember f m).map (·.started now) := by
  by_cases hm : m = (some "startsAt", .null)
  · subst hm
    exact field_null htext f
  · rw [startMember_of_ne hm]
    obtain ⟨_ | name, j⟩ := m
    · rfl
    · cases hknown : recordReader.names.contains name with
      | true =>
        have hknown' : Alert.recordReader.names.contains name = true := hknown
        rw [RecordReader.takeMember_known hknown, RecordReader.takeMember_known hknown']
        refine field_started (not_and_or.1 fun h => hm ?_) f
        rw [h.1, h.2]
      | false =>
        have hknown' : Alert.recordReader.names.contains name = false := hknown
        rw [RecordReader.takeMember_unknown hknown, RecordReader.takeMember_unknown hknown']
        cases j.isWhole <;> rfl

/-- What the readers make of two records that they collect alike. -/
theorem ofJson_of_collect {j j' : Json}
    (hcollect : Alert.recordReader.collect {} j' = (recordReader.collect {} j).map (·.started now))
    (hstart : ∀ f, recordReader.collect {} j = .ok f → f.startsAt.isSome = true) :
    Alert.ofJson j' = (ofJson j).map (·.toAlert now) := by
  rw [Alert.ofJson_eq, hcollect, ofJson_eq]
  cases hf : recordReader.collect {} j with
  | error fault => rfl
  | ok f =>
    have hgiven : f.startsAt ≠ none := Option.isSome_iff_ne_none.1 (hstart f hf)
    exact close_started now hgiven

theorem ofJson_members (htext : Timestamp.read? text = some now)
    (hstart : (members.any fun m => m.1 == some "startsAt") = true) :
    Alert.ofJson (.object (members.map (startMember text))) =
      (ofJson (.object members)).map (·.toAlert now) := by
  refine ofJson_of_collect ?_ fun f hf => ?_
  · exact foldlM_eq_map (Fields.started now) (f := recordReader.takeMember)
      (List.forall₂_map_right_iff.2 (List.forall₂_same.2 fun m _ f =>
        takeMember_startMember htext m f)) {}
  · rw [any_of_foldlM_eq_ok (·.startsAt.isSome) (fun m => m.1 == some "startsAt")
      (fun _ _ _ h => isSome_startsAt_of_takeMember h) hf, hstart, Bool.or_true]

/-- A missing start may as well be null. -/
theorem ofJson_append_null (hstart : (members.any fun m => m.1 == some "startsAt") = false) :
    ofJson (.object (members ++ [(some "startsAt", .null)])) = ofJson (.object members) := by
  show Except.bind (List.foldlM _ _ _) _ = Except.bind (List.foldlM _ _ _) _
  rw [List.foldlM_append]
  cases hf : members.foldlM recordReader.takeMember {} with
  | error fault => rfl
  | ok f =>
    have hnone : f.startsAt = none := by
      rw [← Option.not_isSome_iff_eq_none,
        any_of_foldlM_eq_ok (·.startsAt.isSome) (fun m => m.1 == some "startsAt")
          (fun _ _ _ h => isSome_startsAt_of_takeMember h) hf, hstart]
      decide
    obtain ⟨labels, annotations, startsAt, endsAt, generatorUrl⟩ := f
    cases hnone
    rfl

theorem ofJson_items (htext : Timestamp.read? text = some now) (labels annotations s : Json)
    (rest : List Json) :
    Alert.ofJson (withStart text (.array (labels :: annotations :: s :: rest))) =
      (ofJson (.array (labels :: annotations :: s :: rest))).map (·.toAlert now) := by
  obtain ⟨s', hs', hfield⟩ : ∃ s',
      withStart text (.array (labels :: annotations :: s :: rest)) =
        .array (labels :: annotations :: s' :: rest) ∧
      ∀ f : Fields, Alert.Fields.read "startsAt" s' (f.started now) =
        (Fields.read "startsAt" s f).map (·.started now) := by
    by_cases hnull : s = .null
    · subst hnull
      exact ⟨.string text, rfl, field_null htext⟩
    · refine ⟨s, ?_, field_started (.inr hnull)⟩
      cases s <;> first | rfl | exact absurd rfl hnull
  rw [hs']
  refine ofJson_of_collect ?_ fun f hf => ?_
  · have hitems : List.Forall₂ (fun m m' => ∀ f : Fields,
        Alert.recordReader.takeItem (f.started now) m' =
          (recordReader.takeItem f m).map (Fields.started now))
        (recordReader.names.zip (labels :: annotations :: s :: rest))
        (Alert.recordReader.names.zip (labels :: annotations :: s' :: rest)) := by
      have hlabels : "labels" ≠ "startsAt" := by decide
      have hannotations : "annotations" ≠ "startsAt" := by decide
      refine .cons (field_started (.inl hlabels)) (.cons (field_started (.inl hannotations))
        (.cons hfield (List.forall₂_same.2 fun m hm => field_started (.inl ?_))))
      have hname : m.1 = "endsAt" ∨ m.1 = "generatorURL" := by
        simpa using (List.of_mem_zip hm).1
      rcases hname with hname | hname <;> rw [hname] <;> decide
    exact RecordReader.collect_array_eq_map (r := recordReader) (Fields.started now) rfl hitems rfl
      {}
  · have hfold := (RecordReader.collect_array_eq_ok.1 hf).1
    rw [any_of_foldlM_eq_ok (·.startsAt.isSome) (fun m => m.1 == "startsAt")
      (fun _ _ _ h => isSome_startsAt_of_read h) hfold]
    rfl

theorem takeItem_labels (labels : Json) :
    recordReader.takeItem {} ("labels", labels) =
      (asLabels labels).map fun s => { labels := some s } := by
  show Except.bind ((asLabels labels).map some) _ = _
  cases asLabels labels <;> rfl

theorem takeItem_annotations (s : LabelSet) (annotations : Json) :
    recordReader.takeItem { labels := some s } ("annotations", annotations) =
      (asLabels annotations).map fun t => { labels := some s, annotations := some t } := by
  show Except.bind ((asLabels annotations).map some) _ = _
  cases asLabels annotations <;> rfl

/-- Missing annotations, and behind them a missing start, may as well be empty and null. -/
theorem ofJson_labels (labels : Json) :
    ofJson (.array [labels, .object [], .null]) = ofJson (.array [labels]) := by
  show Except.bind (Except.bind (Except.bind (recordReader.takeItem {} ("labels", labels)) _) _) _ =
    Except.bind (Except.bind (Except.bind (recordReader.takeItem {} ("labels", labels)) _) _) _
  rw [takeItem_labels]
  cases asLabels labels <;> rfl

theorem ofJson_labels_annotations (labels annotations : Json) :
    ofJson (.array [labels, annotations, .null]) = ofJson (.array [labels, annotations]) := by
  show Except.bind (Except.bind (Except.bind (recordReader.takeItem {} ("labels", labels)) _) _) _ =
    Except.bind (Except.bind (Except.bind (recordReader.takeItem {} ("labels", labels)) _) _) _
  rw [takeItem_labels]
  cases asLabels labels with
  | error fault => rfl
  | ok s =>
    show Except.bind (Except.bind (Except.bind (recordReader.takeItem _ (_, annotations)) _) _) _ =
      Except.bind (Except.bind (Except.bind (recordReader.takeItem _ (_, annotations)) _) _) _
    rw [takeItem_annotations]
    cases asLabels annotations <;> rfl

theorem ofJson_withStart (htext : Timestamp.read? text = some now) (j : Json) :
    Alert.ofJson (withStart text j) = (ofJson j).map (·.toAlert now) := by
  cases j with
  | object members =>
    rw [withStart]
    split
    · next hstart => exact ofJson_members htext hstart
    · next hstart =>
      have hmissing : (members.any fun m => m.1 == some "startsAt") = false :=
        Bool.eq_false_iff.2 hstart
      have hmembers : members.map (startMember text) = members := by
        have hsame : ∀ m ∈ members, startMember text m = id m := fun m hm => startMember_of_ne <| by
          rintro rfl
          exact hstart (List.any_eq_true.2 ⟨_, hm, rfl⟩)
        rw [List.map_congr_left hsame, List.map_id]
      have hnamed : ((members ++ [(some "startsAt", Json.null)]).any fun m =>
          m.1 == some "startsAt") = true := by simp
      have hnull := ofJson_members htext hnamed
      rw [ofJson_append_null hmissing, List.map_append, hmembers] at hnull
      exact hnull
  | array items =>
    rcases items with _ | ⟨labels, _ | ⟨annotations, _ | ⟨s, rest⟩⟩⟩
    · rfl
    · rw [← ofJson_labels]
      exact ofJson_items htext labels (.object []) .null []
    · rw [← ofJson_labels_annotations]
      exact ofJson_items htext labels annotations .null []
    · exact ofJson_items htext labels annotations s rest
  | _ => rfl

end Start

/-- **The two readers agree.** An alert is read from the values from which a raw alert with a start
is read, and it is the alert that the raw one becomes. With a start in the place of a missing one or
of a null, the reader of alerts gives what the raw alert becomes at that time, and the same fault if
there is none. Where both readers read a value, they read the same from it. -/
theorem readers_agree (j : Json) (now : Instant) :
    (∀ a, Alert.ofJson j = .ok a ↔
      ∃ r, ofJson j = .ok r ∧ r.startsAt.isSome = true ∧ r.toAlert now = a) ∧
    (∀ text, Timestamp.read? text = some now →
      Alert.ofJson (withStart text j) = (ofJson j).map (·.toAlert now)) ∧
    ∀ r a, ofJson j = .ok r → Alert.ofJson j = .ok a →
      r.labels = a.labels ∧ r.annotations = a.annotations ∧ r.startsAt = some a.startsAt ∧
        r.endsAt = a.endsAt ∧ r.generatorUrl = a.generatorUrl := by
  refine ⟨ofJson_eq_ok_iff j now, fun text htext => ofJson_withStart htext j, ?_⟩
  intro r a hr ha
  obtain ⟨r', hr', hgiven, rfl⟩ := (ofJson_eq_ok_iff j now a).1 ha
  obtain rfl : r = r' := Except.ok.inj (hr.symm.trans hr')
  obtain ⟨t, ht⟩ := Option.isSome_iff_exists.1 hgiven
  refine ⟨rfl, rfl, ?_, rfl, rfl⟩
  rw [toAlert, ht]
  rfl

/-- Members in an order of their own, one of a name that is not known, and a start that is null. -/
def unstarted : Json :=
  .object [(some "endsAt", .string "2025-01-15T11:00:00Z"), (some "since", .array [.null]),
    (some "startsAt", .null), (some "labels", .object [(some "a", .string "1")])]

theorem unstarted_started :
    Timestamp.read? "2025-01-15T12:00:00+02:00" = some ⟨1736935200, 0⟩ ∧
      ofJson unstarted = .ok { labels := .ofList [("a", "1")], endsAt := some ⟨1736938800, 0⟩ } ∧
      Alert.ofJson (withStart "2025-01-15T12:00:00+02:00" unstarted) =
        .ok { labels := .ofList [("a", "1")], startsAt := ⟨1736935200, 0⟩,
              endsAt := some ⟨1736938800, 0⟩ } := by
  have htext : Timestamp.read? "2025-01-15T12:00:00+02:00" = some ⟨1736935200, 0⟩ := by
    decide +kernel
  have hread : ofJson unstarted =
      .ok { labels := .ofList [("a", "1")], endsAt := some ⟨1736938800, 0⟩ } := by
    decide +kernel
  refine ⟨htext, hread, ?_⟩
  rw [(readers_agree unstarted ⟨1736935200, 0⟩).2.1 _ htext, hread]
  rfl

end RawAlert

end AlertFlow
