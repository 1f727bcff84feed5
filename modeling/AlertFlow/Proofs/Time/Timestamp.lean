import AlertFlow.Proofs.Text.Decimal
import AlertFlow.Proofs.Time.Calendar
import AlertFlow.Time.Timestamp
import Mathlib.Tactic.Ring

/-!
Instants and their texts. The instants that the reader accepts are those of the calendar: in range,
and in a leap second only at the end of a minute. Each of them is read back from the text that is
written for it.
-/
namespace AlertFlow

/-- An instant of the calendar. A leap second ends a minute. -/
def Instant.Exists (t : Instant) : Prop := t.InRange ∧ (t.isLeap = true → t.secs % 60 = 59)

instance (t : Instant) : Decidable t.Exists := inferInstanceAs (Decidable (_ ∧ _))

namespace Timestamp

open Decimal (Digits EndsDigits denoted)

/-! ## Numbers in front of a text -/

theorem digits_append {cs rest : List Char} (h : Digits cs) (hrest : EndsDigits rest)
    {limit : Nat} (hlimit : cs.length ≤ limit) (v n : Nat) :
    digits limit v n (cs ++ rest) = (Nat.ofDigitChars 10 cs v, n + cs.length, rest) := by
  induction cs generalizing limit v n with
  | nil =>
    rw [List.nil_append]
    rcases limit with _ | limit
    · rfl
    · cases rest with
      | nil => rfl
      | cons c rest =>
        have hc : Decimal.value? c = none := Decimal.value?_eq_none (hrest c rfl)
        simp [digits, hc]
  | cons c cs ih =>
    obtain ⟨hc, hcs⟩ := List.forall_mem_cons.1 h
    obtain ⟨limit, rfl⟩ : ∃ k, limit = k + 1 := ⟨limit - 1, by simp at hlimit; omega⟩
    rw [List.cons_append, digits, Decimal.value?_of_isDigit hc]
    simp only [List.length_cons] at hlimit ⊢
    rw [ih hcs (by omega), Nat.ofDigitChars_cons, Nat.add_assoc, Nat.add_comm 1]

theorem number?_append {cs rest : List Char} (h : Digits cs) (hne : cs ≠ [])
    (hrest : EndsDigits rest) {limit : Nat} (hlimit : cs.length ≤ limit) :
    number? limit (cs ++ rest) = some (denoted cs, rest) := by
  obtain ⟨c, cs, rfl⟩ := List.exists_cons_of_ne_nil hne
  rw [number?, digits_append h hrest hlimit]
  simp only [List.length_cons, Nat.zero_add]
  rfl

theorem isBlank_of_isDigit {c : Char} (h : Decimal.isDigit c = true) : isBlank c = false := by
  simp only [Decimal.isDigit, Bool.and_eq_true, decide_eq_true_eq, Char.le_def] at h
  have h₀ : 48 ≤ c.toNat := h.1
  have h₉ : c.toNat ≤ 57 := h.2
  rw [Bool.eq_false_iff]
  simp only [isBlank, blankRanges, ne_eq, List.any_eq_true, Bool.and_eq_true, decide_eq_true_eq]
  intro hblank
  obtain ⟨r, hr, hle, hge⟩ := hblank
  simp only [List.mem_cons, List.not_mem_nil, or_false] at hr
  rcases hr with rfl | rfl | rfl | rfl | rfl | rfl | rfl | rfl | rfl | rfl <;> omega

theorem dropBlanks_digits {cs : List Char} (h : Digits cs) (hne : cs ≠ []) (rest : List Char) :
    dropBlanks (cs ++ rest) = cs ++ rest := by
  obtain ⟨c, cs, rfl⟩ := List.exists_cons_of_ne_nil hne
  exact dropBlanks_cons _ (isBlank_of_isDigit (h c List.mem_cons_self))

/-- A field of two digits. -/
theorem field?_writePadded {n : Nat} (hn : n < 100) {rest : List Char} (hrest : EndsDigits rest) :
    field? (Decimal.writePadded 2 n ++ rest) = some (n, rest) := by
  have hd := Decimal.digits_writePadded 2 n
  have hne := Decimal.writePadded_ne_nil 2 n
  rw [field?, dropBlanks_digits hd hne, number?_append hd hne hrest, Decimal.denoted_writePadded]
  rw [Decimal.length_writePadded (by decide) hn]

theorem endsDigits_cons {c : Char} {cs : List Char} (h : Decimal.isDigit c = false) :
    EndsDigits (c :: cs) := by
  intro d hd
  cases hd
  exact h

theorem year?_of_digits {cs : List Char} (h : Digits cs) (hne : cs ≠ []) (rest : List Char) :
    year? (cs ++ rest) = (number? 4 (cs ++ rest)).map fun p => ((p.1 : Int), p.2) := by
  rw [year?, dropBlanks_digits h hne]
  obtain ⟨c, cs, rfl⟩ := List.exists_cons_of_ne_nil hne
  have hc := h c List.mem_cons_self
  split
  · next heq =>
    rw [List.cons_append] at heq
    rw [List.head_eq_of_cons_eq heq] at hc
    cases hc
  · next heq =>
    rw [List.cons_append] at heq
    rw [List.head_eq_of_cons_eq heq] at hc
    cases hc
  · rfl

/-- A year is written with four digits, or with a sign and any number of them. -/
theorem year?_writeYear (y : Int) {rest : List Char} (hrest : EndsDigits rest) :
    year? (writeYear y ++ rest) = some (y, rest) := by
  unfold writeYear
  split
  · next hy =>
    have hd := Decimal.digits_writePadded 4 y.toNat
    have hne := Decimal.writePadded_ne_nil 4 y.toNat
    have hlen : (Decimal.writePadded 4 y.toNat).length = 4 :=
      Decimal.length_writePadded (by decide) (by omega)
    rw [year?_of_digits hd hne, number?_append hd hne hrest (Nat.le_of_eq hlen),
      Decimal.denoted_writePadded, Option.map_some, Int.toNat_of_nonneg hy.1]
  · have hnumber : number? (Decimal.writePadded 4 y.natAbs ++ rest).length
        (Decimal.writePadded 4 y.natAbs ++ rest) = some (y.natAbs, rest) := by
      rw [number?_append (Decimal.digits_writePadded 4 y.natAbs)
        (Decimal.writePadded_ne_nil 4 y.natAbs) hrest (by simp), Decimal.denoted_writePadded]
    rw [List.cons_append]
    split
    · next hneg =>
      rw [year?, dropBlanks_cons _ (by decide)]
      simp only [hnumber, Option.map_some]
      rw [show -(y.natAbs : Int) = y by omega]
    · next hneg =>
      rw [year?, dropBlanks_cons _ (by decide)]
      simp only [hnumber, Option.map_some]
      rw [show (y.natAbs : Int) = y by omega]

/-- A fraction is written with as many digits as lose nothing. -/
theorem fraction?_writeFraction {nanos : Nat} (h : nanos < nanosPerSecond) {c : Char}
    {rest : List Char} (hc : Decimal.isDigit c = false) (hdot : c ≠ '.') :
    fraction? (writeFraction nanos ++ c :: rest) = some (nanos, c :: rest) := by
  have hrest : EndsDigits (c :: rest) := endsDigits_cons hc
  -- with a width, the digits written and the zeros read behind them
  have padded : ∀ width n, 0 < width → width ≤ 9 → n < 10 ^ width →
      fraction? ('.' :: Decimal.writePadded width n ++ c :: rest) =
        some (n * Nat.pow 10 (9 - width), c :: rest) := by
    intro width n hpos hwidth hn
    have hlen := Decimal.length_writePadded hpos hn
    obtain ⟨width, rfl⟩ : ∃ k, width = k + 1 := ⟨width - 1, by omega⟩
    rw [List.cons_append, fraction?, digits_append (Decimal.digits_writePadded _ n) hrest
      (by rw [hlen]; exact hwidth), hlen, Nat.zero_add]
    have hvalue : Nat.ofDigitChars 10 (Decimal.writePadded (width + 1) n) 0 = n :=
      Decimal.denoted_writePadded _ n
    simp only [hvalue, List.dropWhile_cons, hc]
    rfl
  unfold writeFraction
  simp only [nanosPerSecond] at h
  split
  · next hzero =>
    subst hzero
    rw [List.nil_append, fraction?]
    · intro cs heq
      exact hdot (List.head_eq_of_cons_eq heq)
  · split
    · next hmilli =>
      rw [padded 3 _ (by decide) (by decide) (by omega)]
      have : Nat.pow 10 (9 - 3) = 1000000 := rfl
      rw [this, Nat.div_mul_cancel (Nat.dvd_of_mod_eq_zero hmilli)]
    · split
      · next hmicro =>
        rw [padded 6 _ (by decide) (by decide) (by omega)]
        have : Nat.pow 10 (9 - 6) = 1000 := rfl
        rw [this, Nat.div_mul_cancel (Nat.dvd_of_mod_eq_zero hmicro)]
      · rw [padded 9 _ (by decide) (by decide) (by omega)]
        have : Nat.pow 10 (9 - 9) = 1 := rfl
        rw [this, Nat.mul_one]

/-! ## Reading what was written -/

/-- The fields of an instant as they are written. -/
def fieldsOf (t : Instant) : Fields :=
  let secondOfDay := (t.secs % 86400).toNat
  { date := Date.ofDays (t.secs / 86400)
    hour := secondOfDay / 3600
    minute := secondOfDay % 3600 / 60
    second := secondOfDay % 60 + t.nanos / nanosPerSecond
    nanos := t.nanos % nanosPerSecond
    offset := 0 }

@[simp] theorem char?_self (c : Char) (cs : List Char) : char? c (c :: cs) = some cs := by
  rw [char?, if_pos rfl]

theorem day_lt_hundred {d : Date} (h : d.Exists) : d.day < 100 := by
  have hle := h.2.2.2
  have : Date.daysInMonth d.year d.month ≤ 31 := by
    unfold Date.daysInMonth
    split <;> split <;> decide
  omega

theorem fields?_write {t : Instant} (h : t.nanos < 2 * nanosPerSecond) :
    fields? (write t).toList = some (fieldsOf t) := by
  have hdate := Date.exists_ofDays (t.secs / 86400)
  have hmonth := hdate.2.1
  have hday := day_lt_hundred hdate
  have hnanos : t.nanos % nanosPerSecond < nanosPerSecond := Nat.mod_lt _ (by decide)
  have hleap : t.nanos / nanosPerSecond < 2 := by
    rw [Nat.div_lt_iff_lt_mul (by decide)]
    exact h
  have hyphen : ∀ cs, EndsDigits ('-' :: cs) := fun cs => endsDigits_cons rfl
  have colon : ∀ cs, EndsDigits (':' :: cs) := fun cs => endsDigits_cons rfl
  -- behind the seconds there is a fraction or the letter of UTC
  have hseconds : EndsDigits (writeFraction (t.nanos % nanosPerSecond) ++ ['Z']) := by
    unfold writeFraction
    split
    · exact endsDigits_cons rfl
    · split
      · exact endsDigits_cons rfl
      · split <;> exact endsDigits_cons rfl
  have hzone : dropBlanks ['Z'] = ['Z'] := dropBlanks_cons _ (by decide)
  have hoffset : offset? ['Z'] = some (0, []) := by decide
  rw [write, String.toList_ofList]
  simp only [List.append_assoc, List.cons_append]
  unfold fields?
  refine Option.bind_eq_some_iff.2 ⟨_, year?_writeYear _ (hyphen _), ?_⟩
  refine Option.bind_eq_some_iff.2 ⟨_, char?_self _ _, ?_⟩
  refine Option.bind_eq_some_iff.2 ⟨_, field?_writePadded (by omega) (hyphen _), ?_⟩
  refine Option.bind_eq_some_iff.2 ⟨_, char?_self _ _, ?_⟩
  refine Option.bind_eq_some_iff.2 ⟨_, field?_writePadded hday (endsDigits_cons rfl), ?_⟩
  refine Option.bind_eq_some_iff.2 ⟨_, rfl, ?_⟩
  refine Option.bind_eq_some_iff.2 ⟨_, field?_writePadded (by omega) (colon _), ?_⟩
  refine Option.bind_eq_some_iff.2 ⟨_, char?_self _ _, ?_⟩
  refine Option.bind_eq_some_iff.2 ⟨_, field?_writePadded (by omega) (colon _), ?_⟩
  refine Option.bind_eq_some_iff.2 ⟨_, char?_self _ _, ?_⟩
  refine Option.bind_eq_some_iff.2 ⟨_, field?_writePadded (by omega) hseconds, ?_⟩
  refine Option.bind_eq_some_iff.2 ⟨_, fraction?_writeFraction hnanos rfl (by decide), ?_⟩
  refine Option.bind_eq_some_iff.2 ⟨_, hzone ▸ hoffset, ?_⟩
  rfl

/-- The year of an instant in range is in range. -/
theorem year_mem {t : Instant} (h : t.InRange) :
    Instant.minYear ≤ (Date.ofDays (t.secs / 86400)).year ∧
      (Date.ofDays (t.secs / 86400)).year ≤ Instant.maxYear := by
  obtain ⟨hmin, hmax, -⟩ := h
  obtain ⟨hle, hlt⟩ := Date.toDays_mem_year (Date.exists_ofDays (t.secs / 86400))
  rw [Date.toDays_ofDays] at hle hlt
  have hfirst : Instant.minSecs = (Date.mk Instant.minYear 1 1).toDays * 86400 := rfl
  have hlast : Instant.maxSecs = (Date.mk (Instant.maxYear + 1) 1 1).toDays * 86400 - 1 := by decide
  constructor
  · by_contra hlow
    have := Date.toDays_newYear_le
      (show (Date.ofDays (t.secs / 86400)).year + 1 ≤ Instant.minYear by omega)
    omega
  · by_contra hhigh
    have := Date.toDays_newYear_le
      (show Instant.maxYear + 1 ≤ (Date.ofDays (t.secs / 86400)).year by omega)
    omega

theorem instant?_fieldsOf {t : Instant} (h : t.Exists) : (fieldsOf t).instant? = some t := by
  obtain ⟨hrange, hleap⟩ := h
  obtain ⟨hlow, hhigh⟩ := year_mem hrange
  obtain ⟨hmin, hmax, hnanos⟩ := hrange
  obtain ⟨secs, nanos⟩ := t
  have hleap : 1000000000 ≤ nanos → secs % 60 = 59 := fun h => hleap (decide_eq_true h)
  simp only [nanosPerSecond] at hnanos
  have hdays := Date.toDays_ofDays (secs / 86400)
  have hdate : (fieldsOf ⟨secs, nanos⟩).date = Date.ofDays (secs / 86400) := rfl
  have hhour : (fieldsOf ⟨secs, nanos⟩).hour = (secs % 86400).toNat / 3600 := rfl
  have hminute : (fieldsOf ⟨secs, nanos⟩).minute = (secs % 86400).toNat % 3600 / 60 := rfl
  have hsecond : (fieldsOf ⟨secs, nanos⟩).second =
      (secs % 86400).toNat % 60 + nanos / 1000000000 := rfl
  have hrest : (fieldsOf ⟨secs, nanos⟩).nanos = nanos % 1000000000 := rfl
  have hoffset : (fieldsOf ⟨secs, nanos⟩).offset = 0 := rfl
  generalize fieldsOf ⟨secs, nanos⟩ = f at *
  have hsecs : f.date.toDays * 86400 + (f.hour * 3600 + f.minute * 60 +
      (if f.second = 60 then 59 else f.second) : Nat) - f.offset = secs := by
    rw [hdate, hdays]
    split <;> omega
  have hfraction : (if f.second = 60 then f.nanos + nanosPerSecond else f.nanos) = nanos := by
    rw [nanosPerSecond]
    split <;> omega
  have hexists := hdate ▸ Date.exists_ofDays (secs / 86400)
  have hclock : f.hour < 24 ∧ f.minute < 60 ∧ f.second ≤ 60 := by omega
  rw [Fields.instant?, if_pos ⟨hexists, hdate ▸ hlow, hdate ▸ hhigh, hclock⟩]
  simp only [hsecs, hfraction]
  rw [if_pos ⟨hmin, hmax⟩]

/-- **Reading what was written** gives the instant back. -/
theorem read?_write {t : Instant} (h : t.Exists) : read? (write t) = some t := by
  rw [read?, fields?_write h.1.2.2, Option.bind_some, instant?_fieldsOf h]

/-! ## What the reader accepts -/

theorem digits_bound {limit v n v' n' : Nat} {cs rest : List Char}
    (h : digits limit v n cs = (v', n', rest)) :
    n ≤ n' ∧ n' ≤ n + limit ∧ v' < (v + 1) * 10 ^ (n' - n) := by
  induction limit generalizing v n cs with
  | zero =>
    simp only [digits, Prod.mk.injEq] at h
    obtain ⟨rfl, rfl, -⟩ := h
    simp
  | succ limit ih =>
    cases cs with
    | nil =>
      simp only [digits, Prod.mk.injEq] at h
      obtain ⟨rfl, rfl, -⟩ := h
      simp
    | cons c cs =>
      simp only [digits] at h
      split at h
      · next d hd =>
        obtain ⟨hle, hle', hlt⟩ := ih h
        have hdigit := Decimal.value?_le hd
        refine ⟨by omega, by omega, ?_⟩
        have : n' - n = n' - (n + 1) + 1 := by omega
        rw [this, Nat.pow_succ]
        calc v' < (10 * v + d + 1) * 10 ^ (n' - (n + 1)) := hlt
          _ ≤ (10 * v + 10) * 10 ^ (n' - (n + 1)) := Nat.mul_le_mul_right _ (by omega)
          _ = (v + 1) * (10 ^ (n' - (n + 1)) * 10) := by ring
      · simp only [Prod.mk.injEq] at h
        obtain ⟨rfl, rfl, -⟩ := h
        simp

theorem fraction?_lt {cs rest : List Char} {nanos : Nat} (h : fraction? cs = some (nanos, rest)) :
    nanos < nanosPerSecond := by
  unfold fraction? at h
  split at h
  · split at h
    · cases h
    · next v n rest' heq =>
      obtain ⟨-, hle, hlt⟩ := digits_bound heq
      cases h
      have hone : 1 * 10 ^ (n + 1) = 10 ^ (n + 1) := Nat.one_mul _
      simp only [Nat.zero_add, Nat.sub_zero] at hle hlt
      calc v * Nat.pow 10 (9 - (n + 1)) < 10 ^ (n + 1) * 10 ^ (9 - (n + 1)) :=
            Nat.mul_lt_mul_of_pos_right (hone ▸ hlt) (Nat.pow_pos (by decide))
        _ = 10 ^ 9 := by rw [← Nat.pow_add, Nat.add_sub_cancel' hle]
  · cases h
    decide

theorem offsetSize?_minutes {cs rest : List Char} {offset : Int}
    (h : offsetSize? cs = some (offset, rest)) : offset % 60 = 0 := by
  unfold offsetSize? at h
  simp only [Option.bind_eq_bind, Option.bind_eq_some_iff] at h
  obtain ⟨⟨hours, cs'⟩, -, ⟨minutes, cs''⟩, -, h⟩ := h
  split at h
  · cases h
    omega
  · cases h

theorem offset?_minutes {cs rest : List Char} {offset : Int}
    (h : offset? cs = some (offset, rest)) : offset % 60 = 0 := by
  unfold offset? at h
  split at h
  · cases h
    rfl
  · split at h
    · cases h
      rfl
    · cases h
      rfl
    · exact offsetSize?_minutes h
    · obtain ⟨⟨size, _⟩, hsize, heq⟩ := Option.map_eq_some_iff.1 h
      cases heq
      have := offsetSize?_minutes hsize
      simp only
      omega
    · obtain ⟨⟨size, _⟩, hsize, heq⟩ := Option.map_eq_some_iff.1 h
      cases heq
      have := offsetSize?_minutes hsize
      simp only
      omega
    · cases h

theorem fields?_bounds {cs : List Char} {f : Fields} (h : fields? cs = some f) :
    f.nanos < nanosPerSecond ∧ f.offset % 60 = 0 := by
  unfold fields? at h
  obtain ⟨⟨year, cs₁⟩, -, h⟩ := Option.bind_eq_some_iff.1 h
  obtain ⟨cs₂, -, h⟩ := Option.bind_eq_some_iff.1 h
  obtain ⟨⟨month, cs₃⟩, -, h⟩ := Option.bind_eq_some_iff.1 h
  obtain ⟨cs₄, -, h⟩ := Option.bind_eq_some_iff.1 h
  obtain ⟨⟨day, cs₅⟩, -, h⟩ := Option.bind_eq_some_iff.1 h
  dsimp -zeta only at h
  extract_lets clock? at h
  -- behind the date, whichever letter separates it from the time of day
  have hclock : ∀ cs, clock? cs = some f → f.nanos < nanosPerSecond ∧ f.offset % 60 = 0 := by
    intro cs h
    obtain ⟨⟨hour, cs₁⟩, -, h⟩ := Option.bind_eq_some_iff.1 h
    obtain ⟨cs₂, -, h⟩ := Option.bind_eq_some_iff.1 h
    obtain ⟨⟨minute, cs₃⟩, -, h⟩ := Option.bind_eq_some_iff.1 h
    obtain ⟨cs₄, -, h⟩ := Option.bind_eq_some_iff.1 h
    obtain ⟨⟨second, cs₅⟩, -, h⟩ := Option.bind_eq_some_iff.1 h
    obtain ⟨⟨nanos, cs₆⟩, hnanos, h⟩ := Option.bind_eq_some_iff.1 h
    obtain ⟨⟨offset, cs₇⟩, hoffset, h⟩ := Option.bind_eq_some_iff.1 h
    dsimp only at h
    split at h
    · cases h
      exact ⟨fraction?_lt hnanos, offset?_minutes hoffset⟩
    · cases h
  split at h
  · exact hclock _ h
  · exact hclock _ h
  · exact hclock _ h
  · cases h

theorem exists_of_instant? {f : Fields} {t : Instant} (hnanos : f.nanos < nanosPerSecond)
    (hoffset : f.offset % 60 = 0) (h : f.instant? = some t) : t.Exists := by
  have hlimit : nanosPerSecond = 1000000000 := rfl
  unfold Fields.instant? at h
  rw [Option.ite_none_right_eq_some] at h
  obtain ⟨-, h⟩ := h
  dsimp only at h
  rw [Option.ite_none_right_eq_some] at h
  obtain ⟨hrange, h⟩ := h
  cases h
  refine ⟨⟨hrange.1, hrange.2, ?_⟩, fun hleap => ?_⟩
  · dsimp only
    split <;> omega
  · -- only the second 60 has a full second of nanoseconds
    have hfull : nanosPerSecond ≤ if f.second = 60 then f.nanos + nanosPerSecond else f.nanos :=
      of_decide_eq_true hleap
    have hsixty : f.second = 60 := by
      by_contra hne
      rw [if_neg hne] at hfull
      omega
    simp only [hsixty, if_true]
    omega

/-- The reader accepts the instants of the calendar only. -/
theorem exists_of_read? {text : String} {t : Instant} (h : read? text = some t) : t.Exists := by
  obtain ⟨f, hf, ht⟩ := Option.bind_eq_some_iff.1 h
  obtain ⟨hnanos, hoffset⟩ := fields?_bounds hf
  exact exists_of_instant? hnanos hoffset ht

/-- **The instants that have a text** are those of the calendar. -/
theorem readable_iff {t : Instant} : (∃ text, read? text = some t) ↔ t.Exists := by
  constructor
  · rintro ⟨text, h⟩
    exact exists_of_read? h
  · intro h
    exact ⟨write t, read?_write h⟩

end Timestamp

end AlertFlow
