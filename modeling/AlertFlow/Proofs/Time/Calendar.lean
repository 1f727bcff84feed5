import AlertFlow.Time.Calendar
import Mathlib.Tactic.IntervalCases

/-!
Counting days. The date that belongs to the number of a day exists and has that number; and the days
of a year lie between the first of it and the first of the next, so the range of years is a range of
days.
-/
namespace AlertFlow.Date

/-- Where a day of the 400-year cycle lies: in one of four centuries, one of their leap cycles, one
of the four years of that, and on a day of that year, which begins in March. -/
structure Placed (r century leapCycle year day : Nat) : Prop where
  century_le : century ≤ 3
  leapCycle_le : leapCycle ≤ 24
  year_le : year ≤ 3
  day_le : day ≤ 365
  leapDay : day = 365 → year = 3 ∧ (leapCycle = 24 → century = 3)
  sum : century * 36524 + leapCycle * 1461 + year * 365 + day = r

theorem placed {r century q leapCycle u year : Nat} (h : r < 146097)
    (hcentury : century = min (r / 36524) 3) (hq : q = r - century * 36524)
    (hleapCycle : leapCycle = q / 1461) (hu : u = q - leapCycle * 1461)
    (hyear : year = min (u / 365) 3) :
    Placed r century leapCycle year (u - year * 365) := by
  have hc : century ≤ 3 ∧ century * 36524 + q = r ∧ (q < 36524 ∨ century = 3 ∧ q = 36524) := by
    omega
  have hl : leapCycle * 1461 + u = q ∧ u < 1461 := by omega
  have hy : year ≤ 3 ∧ year * 365 + (u - year * 365) = u ∧ u - year * 365 ≤ 365 ∧
      (u - year * 365 = 365 → year = 3) := by omega
  clear hcentury hyear hleapCycle
  refine ⟨hc.1, by omega, hy.1, hy.2.2.1, ?_, by omega⟩
  intro hd
  omega

/-- The month of a year that begins in March on which a day lies, and the day of it. -/
theorem monthStart_le {day : Nat} (h : day ≤ 365) :
    (5 * day + 2) / 153 ≤ 11 ∧ monthStart ((5 * day + 2) / 153) ≤ day ∧
      day < monthStart ((5 * day + 2) / 153 + 1) := by
  simp only [monthStart]
  omega

theorem isLeapYear_iff {year : Int} :
    isLeapYear year = true ↔ year % 4 = 0 ∧ (year % 100 = 0 → year % 400 = 0) := by
  simp only [isLeapYear, Bool.and_eq_true, Bool.or_eq_true, beq_iff_eq, bne_iff_ne]
  omega

/-- Before February the months of a year that begins in March are as long as the next one begins
later. -/
theorem monthStart_succ {m : Nat} (h : m < 11) (year : Int) :
    monthStart (m + 1) = monthStart m + daysInMonth year (if m < 10 then m + 3 else m - 9) := by
  interval_cases m <;> rfl

theorem daysInFebruary (year : Int) :
    daysInMonth year 2 = if isLeapYear year then 29 else 28 := rfl

/-- A day of a year that begins in March is a day of its month. -/
theorem day_le_daysInMonth {day m : Nat} {year : Int} (hm : m = (5 * day + 2) / 153)
    (h : day ≤ 365) (hleap : day = 365 → isLeapYear (year + 1) = true) :
    day - monthStart m + 1 ≤
      daysInMonth (if m < 10 then year else year + 1) (if m < 10 then m + 3 else m - 9) := by
  obtain ⟨hle, hstart, hlt⟩ := monthStart_le h
  rw [← hm] at hle hstart hlt
  rcases Nat.lt_or_eq_of_le hle with hle | rfl
  · rw [monthStart_succ hle (if m < 10 then year else year + 1)] at hlt
    omega
  · -- February is last, so only its length depends on the year
    have hfebruary : monthStart 11 = 337 := rfl
    rw [if_neg (by decide), if_neg (by decide), daysInFebruary, hfebruary]
    split
    · omega
    · next hnot =>
      have : day ≠ 365 := fun hd => hnot (hleap hd)
      omega

/-- The year, begun in March, of a day of the calendar. -/
theorem ofDays_spec (n : Int) : ∃ (cycle : Int) (r century leapCycle year day : Nat),
    n = cycle * 146097 + r - epochOffset ∧ Placed r century leapCycle year day ∧
      ofDays n =
        let month := (5 * day + 2) / 153
        let y : Int := cycle * 400 + (century * 100 + leapCycle * 4 + year : Nat)
        { year := if month < 10 then y else y + 1
          month := if month < 10 then month + 3 else month - 9
          day := day - monthStart month + 1 } := by
  have hr : ((n + epochOffset) % 146097).toNat < 146097 := by omega
  refine ⟨(n + epochOffset) / 146097, ((n + epochOffset) % 146097).toNat, _, _, _, _, ?_,
    placed hr rfl rfl rfl rfl rfl, rfl⟩
  omega

/-- A day of the calendar exists. -/
theorem exists_ofDays (n : Int) : (ofDays n).Exists := by
  obtain ⟨cycle, r, century, leapCycle, year, day, -, hp, heq⟩ := ofDays_spec n
  rw [heq]
  obtain ⟨hmonth, -, -⟩ := monthStart_le hp.day_le
  refine ⟨?_, ?_, Nat.le_add_left 1 _, day_le_daysInMonth rfl hp.day_le ?_⟩
  · dsimp only
    split <;> omega
  · dsimp only
    split <;> omega
  · intro hd
    obtain ⟨hy, hl⟩ := hp.leapDay hd
    have := hp.century_le
    have := hp.leapCycle_le
    rw [isLeapYear_iff]
    omega

/-- **Counting days**: the date of a day has its number. -/
theorem toDays_ofDays (n : Int) : (ofDays n).toDays = n := by
  obtain ⟨cycle, r, century, leapCycle, year, day, hn, hp, heq⟩ := ofDays_spec n
  obtain ⟨hmonth, hstart, -⟩ := monthStart_le hp.day_le
  obtain ⟨hc, hl, hy, hd, -, hsum⟩ := hp
  rw [heq, hn]
  simp only [toDays]
  generalize (5 * day + 2) / 153 = m at hmonth hstart ⊢
  -- January and February are counted to the year before, in which they come last
  have hyear : (if (if m < 10 then m + 3 else m - 9) ≤ 2 then
      (if m < 10 then cycle * 400 + (century * 100 + leapCycle * 4 + year : Nat)
        else cycle * 400 + (century * 100 + leapCycle * 4 + year : Nat) + 1) - 1
      else (if m < 10 then cycle * 400 + (century * 100 + leapCycle * 4 + year : Nat)
        else cycle * 400 + (century * 100 + leapCycle * 4 + year : Nat) + 1)) =
      cycle * 400 + (century * 100 + leapCycle * 4 + year : Nat) := by
    split <;> split <;> omega
  have hm : ((if m < 10 then m + 3 else m - 9) + 9) % 12 = m := by
    split <;> omega
  rw [hyear, hm]
  omega

/-- Later years begin later. -/
theorem toDays_newYear_le {y y' : Int} (h : y ≤ y') :
    (Date.mk y 1 1).toDays ≤ (Date.mk y' 1 1).toDays := by
  simp only [toDays]
  omega

/-- A date lies in its year. -/
theorem toDays_mem_year {d : Date} (h : d.Exists) :
    (Date.mk d.year 1 1).toDays ≤ d.toDays ∧ d.toDays < (Date.mk (d.year + 1) 1 1).toDays := by
  obtain ⟨y, m, d⟩ := d
  obtain ⟨hm, hm', hd, hd'⟩ := h
  simp only at hm hm' hd hd' ⊢
  by_cases hfebruary : m = 2
  · subst hfebruary
    have hleap := @isLeapYear_iff y
    rw [daysInFebruary] at hd'
    simp only [toDays, monthStart]
    split at hd' <;> omega
  · have hlong : daysInMonth y m ≤ 31 ∧ (m = 12 → daysInMonth y m = 31) := by
      unfold daysInMonth
      split <;> [omega; split <;> omega]
    simp only [toDays, monthStart]
    omega

end AlertFlow.Date
