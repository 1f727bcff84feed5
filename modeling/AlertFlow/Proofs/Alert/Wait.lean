import AlertFlow.Alert
import AlertFlow.Time.Moment

/-!
When an alert has waited for a length of time. The program adds the length to the start of the alert
and gives up where the sum cannot be represented; no time lies beyond such a sum, so that nothing is
lost by that: the test agrees with the sum of start and length as whole nanoseconds without bounds.
-/
namespace AlertFlow

theorem Instant.secs_add_le_later (t : Instant) (d : Duration) :
    t.secs + d.secs ≤ (t.later d).secs := by
  unfold later
  split
  · split
    · exact Int.le_add_of_nonneg_right (Int.natCast_nonneg _)
    · next h =>
      have : d.secs = 0 := by omega
      simp [this]
  · exact Int.le_add_of_nonneg_right (Int.natCast_nonneg _)

theorem Duration.secs_le_of_not_le {d e : Duration} (h : ¬ d ≤ e) : e.secs ≤ d.secs := by
  have h : e.toNanos < d.toNanos := Nat.not_le.1 h
  have := d.nanos_lt
  have := e.nanos_lt
  simp only [toNanos, nanosPerSecond] at *
  omega

/-- What cannot be added to an instant leads beyond all instants. -/
theorem Instant.not_later_lt {t now : Instant} {d : Duration} (ht : t.InRange) (hn : now.InRange)
    (h : ¬ (d ≤ longestStep ∧ (t.later d).secs ≤ maxSecs)) : ¬ t.later d < now := by
  have hle := t.secs_add_le_later d
  obtain ⟨ht, -⟩ := ht
  obtain ⟨-, hn, -⟩ := hn
  have hmin : minSecs = -8334601228800 := by decide +kernel
  have hmax : maxSecs = 8210266876799 := by decide +kernel
  intro hlt
  have hsecs : (t.later d).secs ≤ now.secs := by
    rcases hlt with hlt | ⟨heq, -⟩
    · exact Int.le_of_lt hlt
    · exact Int.le_of_eq heq
  by_cases hd : d ≤ longestStep
  · exact h ⟨hd, Int.le_trans hsecs hn⟩
  · have hlong := Duration.secs_le_of_not_le hd
    simp only [longestStep] at hlong
    omega

theorem Alert.hasWaited_eq : Alert.hasWaited =
    fun a wait now => (a.startsAt.later? wait).any fun t => decide (t < now) := by
  delta Alert.hasWaited
  funext a wait now
  cases a.startsAt.later? wait with
  | none => rfl
  | some t => rfl

/-- An alert has waited for a length of time once that length after its start lies in the past. -/
theorem Alert.hasWaited_iff {a : Alert} {wait : Duration} {now : Instant}
    (ha : a.startsAt.InRange) (hn : now.InRange) :
    a.hasWaited wait now = true ↔ a.startsAt.later wait < now := by
  rw [hasWaited_eq]
  dsimp only
  rw [Instant.later?]
  by_cases h : wait ≤ Instant.longestStep ∧ (a.startsAt.later wait).secs ≤ Instant.maxSecs
  · rw [if_pos h, Option.any_some, decide_eq_true_iff]
  · rw [if_neg h]
    exact iff_of_false Bool.false_ne_true (Instant.not_later_lt ha hn h)

/-- A length of time that has passed since an alert started is in the range of the clock. -/
theorem Alert.exceedsClock_of_hasWaited {a : Alert} {wait : Duration} {now : Instant}
    (h : a.hasWaited wait now = true) : wait.exceedsClock = false := by
  rw [hasWaited_eq] at h
  obtain ⟨t, ht, -⟩ := (Option.any_eq_true _ _).1 h
  rw [Instant.later?, Option.ite_none_right_eq_some] at ht
  obtain ⟨⟨hle, -⟩, -⟩ := ht
  have hle : wait.toNanos ≤ Instant.longestStep.toNanos := hle
  simp only [Duration.toNanos, nanosPerSecond, Instant.longestStep] at hle
  rw [Duration.exceedsClock, decide_eq_false_iff_not, signedLimit]
  omega

/-! ## Waiting as whole nanoseconds -/

namespace Instant

variable {a b t : Instant} {d e : Duration}

/-- The nanoseconds from 1 January 1970 to an instant outside all leap seconds. -/
def toNanos (t : Instant) : Int := t.secs * nanosPerSecond + t.nanos

theorem nanos_lt_of_isLeap (ht : t.isLeap = false) : t.nanos < nanosPerSecond :=
  Nat.not_le.1 (of_decide_eq_false ht)

theorem lt_iff_toNanos (ha : a.isLeap = false) (hb : b.isLeap = false) :
    a < b ↔ a.toNanos < b.toNanos := by
  have ha := nanos_lt_of_isLeap ha
  have hb := nanos_lt_of_isLeap hb
  show a.secs < b.secs ∨ a.secs = b.secs ∧ a.nanos < b.nanos ↔ _
  simp only [toNanos, nanosPerSecond] at *
  omega

theorem later_of_isLeap (ht : t.isLeap = false) (d : Duration) :
    t.later d = ⟨t.secs + d.secs + ((t.nanos + d.nanos) / nanosPerSecond : Nat),
      (t.nanos + d.nanos) % nanosPerSecond⟩ := by
  rw [later, ht]
  rfl

theorem isLeap_later (ht : t.isLeap = false) (d : Duration) : (t.later d).isLeap = false := by
  rw [later_of_isLeap ht]
  exact decide_eq_false (Nat.not_le.2 (Nat.mod_lt _ (by decide)))

theorem toNanos_later (ht : t.isLeap = false) (d : Duration) :
    (t.later d).toNanos = t.toNanos + d.toNanos := by
  rw [later_of_isLeap ht]
  simp only [toNanos, Duration.toNanos, nanosPerSecond]
  omega

/-- A length leads out of the leap second that an instant lies in. -/
def LeadsOut (t : Instant) (d : Duration) : Prop :=
  0 < d.secs ∨ 2 * nanosPerSecond ≤ t.nanos + d.nanos

theorem later_of_leadsOut (ht : t.isLeap = true) (h : t.LeadsOut d) :
    t.later d = ⟨t.secs + d.secs + ((t.nanos - nanosPerSecond + d.nanos) / nanosPerSecond : Nat),
      (t.nanos - nanosPerSecond + d.nanos) % nanosPerSecond⟩ := by
  rw [later, if_pos ht]
  exact if_pos h

theorem later_of_not_leadsOut (ht : t.isLeap = true) (h : ¬ t.LeadsOut d) :
    t.later d = ⟨t.secs, t.nanos + d.nanos⟩ := by
  rw [later, if_pos ht]
  exact if_neg h

/-- A shorter length leads to no later instant, from inside a leap second as well. -/
theorem later_le_later (t : Instant) (h : d ≤ e) : t.later d ≤ t.later e := by
  have h : d.toNanos ≤ e.toNanos := h
  have := d.nanos_lt
  have := e.nanos_lt
  rw [le_iff]
  cases ht : t.isLeap with
  | false =>
    rw [later_of_isLeap ht, later_of_isLeap ht]
    simp only [Duration.toNanos, nanosPerSecond] at *
    omega
  | true =>
    have hleap : nanosPerSecond ≤ t.nanos := of_decide_eq_true ht
    by_cases hd : t.LeadsOut d <;> by_cases he : t.LeadsOut e
    · rw [later_of_leadsOut ht hd, later_of_leadsOut ht he]
      simp only [Duration.toNanos, nanosPerSecond] at *
      omega
    · -- the longer one leads out as well
      refine absurd ?_ he
      simp only [LeadsOut, Duration.toNanos, nanosPerSecond] at *
      omega
    · rw [later_of_not_leadsOut ht hd, later_of_leadsOut ht he]
      simp only [LeadsOut, Duration.toNanos, nanosPerSecond] at *
      omega
    · rw [later_of_not_leadsOut ht hd, later_of_not_leadsOut ht he]
      have hnanos : d.nanos ≤ e.nanos := by
        simp only [LeadsOut, Duration.toNanos, nanosPerSecond] at *
        omega
      exact .inr ⟨rfl, Nat.add_le_add_left hnanos t.nanos⟩

end Instant

namespace Alert

variable {a : Alert} {wait : Duration} {now : Instant}

/-- Nothing that the program gives up on lies in the past. -/
theorem not_later_lt_of_later?_eq_none (ha : a.startsAt.InRange) (hn : now.InRange)
    (h : a.startsAt.later? wait = none) : ¬ a.startsAt.later wait < now := by
  rw [Instant.later?, ite_eq_right_iff] at h
  exact Instant.not_later_lt ha hn fun hfits => Option.some_ne_none _ (h hfits)

/-- An alert that has waited goes on having waited, and has waited for any shorter length. -/
theorem hasWaited_mono {later : Instant} {shorter : Duration} (h : a.hasWaited wait now = true)
    (hnow : now ≤ later) (hwait : shorter ≤ wait) : a.hasWaited shorter later = true := by
  rw [hasWaited_eq] at h ⊢
  obtain ⟨t, ht, hlt⟩ := (Option.any_eq_true _ _).1 h
  rw [Instant.later?, Option.ite_none_right_eq_some] at ht
  obtain ⟨⟨hstep, hmax⟩, ht⟩ := ht
  obtain rfl := Option.some.inj ht
  have hsum := a.startsAt.later_le_later hwait
  have hfits : shorter ≤ Instant.longestStep ∧
      (a.startsAt.later shorter).secs ≤ Instant.maxSecs := by
    refine ⟨Nat.le_trans hwait hstep, Int.le_trans ?_ hmax⟩
    rw [Instant.le_iff] at hsum
    omega
  have hpast : a.startsAt.later shorter < later := by
    have hlt : a.startsAt.later wait < now := of_decide_eq_true hlt
    rw [Instant.le_iff] at hsum hnow
    show _ ∨ _
    have hlt : _ ∨ _ := hlt
    omega
  refine (Option.any_eq_true _ _).2 ⟨_, ?_, decide_eq_true hpast⟩
  rw [Instant.later?, if_pos hfits]

/-- **The test is exact.** The start of an alert and the time are any two of the calendar, outside
leap seconds, and the length to wait for is any. The alert has waited exactly if the sum of start
and length, as a whole number of nanoseconds without bounds, is before the time; a sum on which the
program gives up, because the length is too long to be added or the sum is beyond the calendar, is
not. What has waited once has waited at every later time and for every shorter length. -/
theorem waited_exactly (ha : a.startsAt.InRange) (hn : now.InRange)
    (hstart : a.startsAt.isLeap = false) (hnow : now.isLeap = false) :
    (a.hasWaited wait now = true ↔ a.startsAt.toNanos + wait.toNanos < now.toNanos) ∧
      (a.startsAt.later? wait = none → now.toNanos ≤ a.startsAt.toNanos + wait.toNanos) ∧
      (a.hasWaited wait now = true → ∀ later shorter, now ≤ later → shorter ≤ wait →
        a.hasWaited shorter later = true) := by
  have hsum : a.startsAt.later wait < now ↔
      a.startsAt.toNanos + wait.toNanos < now.toNanos := by
    rw [Instant.lt_iff_toNanos (Instant.isLeap_later hstart wait) hnow,
      Instant.toNanos_later hstart]
  refine ⟨(hasWaited_iff ha hn).trans hsum, fun hnone => ?_, fun h later shorter => ?_⟩
  · exact Int.not_lt.1 (mt hsum.2 (not_later_lt_of_later?_eq_none ha hn hnone))
  · exact hasWaited_mono h

/-- An alert that starts with the calendar. -/
def firstAlert : Alert where
  labels := .empty
  startsAt := ⟨Instant.minSecs, 0⟩

/-- At the last nanosecond there is, it has waited for one nanosecond less than the whole time until
then, and not for the whole. The longest length there is is given up, and has not passed. -/
theorem calendar_waited_out :
    let last : Instant := ⟨Instant.maxSecs, 999999999⟩
    let most : Duration := { secs := 16544868105599, nanos := 999999998 }
    let whole : Duration := { secs := 16544868105599, nanos := 999999999 }
    firstAlert.hasWaited most last = true ∧ ¬ firstAlert.hasWaited whole last = true ∧
      last.toNanos ≤ firstAlert.startsAt.toNanos + Duration.longest.toNanos := by
  intro last most whole
  have hstart : firstAlert.startsAt.InRange := by decide +kernel
  have hlast : last.InRange := by decide +kernel
  have exactly (wait : Duration) :=
    @waited_exactly firstAlert wait last hstart hlast (by decide +kernel) (by decide +kernel)
  exact ⟨(exactly most).1.2 (by decide +kernel), mt (exactly whole).1.1 (by decide +kernel),
    (exactly .longest).2.1 (by decide +kernel)⟩

end Alert

end AlertFlow
