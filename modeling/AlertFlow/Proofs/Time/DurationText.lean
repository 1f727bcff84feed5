import AlertFlow.Proofs.Text.Decimal
import AlertFlow.Time.DurationText

/-!
Durations and their texts. Over a text of spans the reader computes a checked sum: at each blank,
and at the end, the span in front of it is added. The spans that are written for a duration add up
to that duration. None of the sums on the way is greater, so none of the checks fails, up to the
longest duration there is.
-/
namespace AlertFlow.Duration

open Decimal (Digits)

/-! ## Spans -/

/-- A name that consists of letters and stands for a unit. -/
structure Names (name : String) (unit : TimeUnit) : Prop where
  letters : name.toList.all isUnitLetter = true
  unit : TimeUnit.ofName? name = some unit

theorem Names.ne_nil {name : String} {unit : TimeUnit} (h : Names name unit) :
    name.toList ≠ [] := by
  intro hnil
  have hunit := h.unit
  rw [String.toList_eq_nil_iff.1 hnil] at hunit
  cases hunit

/-- A span as it is written: a number of units and the name that it has there. -/
structure Span where
  count : Nat
  name : String
  unit : TimeUnit

namespace Span

def text (s : Span) : String := String.ofList (Decimal.write s.count) ++ s.name

/-- The text of a span, unless it is zero. -/
def text? (s : Span) : Option String := if s.count = 0 then none else some s.text

/-- The length of a span in nanoseconds. -/
def toNanos (s : Span) : Nat :=
  s.count * s.unit.size * if s.unit.isSubsecond then 1 else nanosPerSecond

end Span

/-- Adds a span, as long as the sum is a duration. -/
def addSpan (d : Duration) (s : Span) : Option Duration := d.addWhole? s.count s.unit

/-! ## Reading a text of spans -/

/-- Letters are neither digits nor blanks, so the reader knows where a name begins and ends. -/
theorem of_isUnitLetter {c : Char} (h : isUnitLetter c = true) :
    Decimal.value? c = none ∧ isBlank c = false := by
  have hrange : 65 ≤ c.toNat ∧ c.toNat ≤ 122 ∨ c.toNat = 181 := by
    simp only [isUnitLetter, Bool.or_eq_true, Bool.and_eq_true, decide_eq_true_eq, beq_iff_eq] at h
    rcases h with (⟨hle, hge⟩ | ⟨hle, hge⟩) | rfl
    · have hlow : 97 ≤ c.toNat := hle
      have hhigh : c.toNat ≤ 122 := hge
      omega
    · have hlow : 65 ≤ c.toNat := hle
      have hhigh : c.toNat ≤ 90 := hge
      omega
    · exact .inr rfl
  constructor
  · refine Decimal.value?_eq_none (Bool.eq_false_iff.2 fun hdigit => ?_)
    simp only [Decimal.isDigit, Bool.and_eq_true, decide_eq_true_eq] at hdigit
    have hnine : c.toNat ≤ 57 := hdigit.2
    omega
  · refine Bool.eq_false_iff.2 fun hblank => ?_
    simp only [isBlank, blankRanges, List.any_cons, List.any_nil, Bool.or_eq_true,
      Bool.and_eq_true, decide_eq_true_eq, Bool.false_eq_true, or_false] at hblank
    omega

section Reading

variable {total : Duration} {any : Bool}

theorem run_digits {cs : List Char} (h : Digits cs) (n : Nat) :
    cs.foldlM TextState.step ⟨total, any, .whole n⟩ =
      some ⟨total, any, .whole (Nat.ofDigitChars 10 cs n)⟩ := by
  induction cs generalizing n with
  | nil => rfl
  | cons c cs ih =>
    obtain ⟨hc, hcs⟩ := List.forall_mem_cons.1 h
    have hstep : TextState.step ⟨total, any, .whole n⟩ c =
        some ⟨total, any, .whole (10 * n + (c.toNat - '0'.toNat))⟩ := by
      simp only [TextState.step, Decimal.value?_of_isDigit hc]
    rw [List.foldlM_cons, hstep, Nat.ofDigitChars_cons]
    exact ih hcs _

theorem run_number (n : Nat) :
    (Decimal.write n).foldlM TextState.step ⟨total, any, .outside⟩ =
      some ⟨total, any, .whole n⟩ := by
  have hdigits := Decimal.digits_write n
  have hvalue : Nat.ofDigitChars 10 (Decimal.write n) 0 = n := Decimal.denoted_write n
  obtain ⟨c, cs, hcs⟩ := List.exists_cons_of_ne_nil (Decimal.write_ne_nil n)
  rw [hcs] at hdigits hvalue ⊢
  obtain ⟨hc, hrest⟩ := List.forall_mem_cons.1 hdigits
  have hstep : TextState.step ⟨total, any, .outside⟩ c =
      some ⟨total, any, .whole (c.toNat - '0'.toNat)⟩ := by
    simp only [TextState.step, Decimal.value?_of_isDigit hc]
  rw [Nat.ofDigitChars_cons, Nat.mul_zero, Nat.zero_add] at hvalue
  rw [List.foldlM_cons, hstep]
  exact (run_digits hrest _).trans (by rw [hvalue])

theorem run_letters {cs : List Char} (h : ∀ c ∈ cs, isUnitLetter c = true) (n : Nat)
    (letters : List Char) :
    cs.foldlM TextState.step ⟨total, any, .unit n none letters⟩ =
      some ⟨total, any, .unit n none (letters ++ cs)⟩ := by
  induction cs generalizing letters with
  | nil =>
    rw [List.append_nil]
    rfl
  | cons c cs ih =>
    obtain ⟨hc, hcs⟩ := List.forall_mem_cons.1 h
    obtain ⟨hdigit, hblank⟩ := of_isUnitLetter hc
    have hstep : TextState.step ⟨total, any, .unit n none letters⟩ c =
        some ⟨total, any, .unit n none (letters ++ [c])⟩ := by
      simp only [TextState.step, hdigit, hblank, hc, Bool.false_eq_true, if_false, if_true]
    rw [List.foldlM_cons, hstep, List.append_cons letters c cs]
    exact ih hcs (letters ++ [c])

/-- Behind the text of a span the reader stands in its unit. -/
theorem run_text {s : Span} (h : Names s.name s.unit) :
    s.text.toList.foldlM TextState.step ⟨total, any, .outside⟩ =
      some ⟨total, any, .unit s.count none s.name.toList⟩ := by
  obtain ⟨c, cs, hcs⟩ := List.exists_cons_of_ne_nil h.ne_nil
  obtain ⟨hc, hrest⟩ := List.forall_mem_cons.1 (hcs ▸ List.all_eq_true.1 h.letters)
  obtain ⟨hdigit, hblank⟩ := of_isUnitLetter hc
  have hstep : TextState.step ⟨total, any, .whole s.count⟩ c =
      some ⟨total, any, .unit s.count none [c]⟩ := by
    simp only [TextState.step, hdigit, hblank, hc, Bool.false_eq_true, if_false, if_true]
  rw [Span.text, String.toList_append, String.toList_ofList, List.foldlM_append, run_number, hcs]
  show (TextState.step ⟨total, any, .whole s.count⟩ c).bind _ = _
  rw [hstep]
  exact run_letters hrest s.count [c]

theorem addSpan?_name {s : Span} (h : Names s.name s.unit) (d : Duration) :
    addSpan? d s.count none s.name.toList = d.addSpan s := by
  rw [addSpan?, String.ofList_toList, h.unit]
  exact Option.bind_fun_some _

/-- **A text of spans is read as their checked sum.** -/
theorem run_spans {s : Span} {ss : List Span} (h : ∀ x ∈ s :: ss, Names x.name x.unit) :
    ((" ".intercalate ((s :: ss).map Span.text)).toList.foldlM TextState.step
        ⟨total, any, .outside⟩).bind TextState.finish = (s :: ss).foldlM addSpan total := by
  induction ss generalizing s total any with
  | nil =>
    have hs := h s List.mem_cons_self
    rw [List.map_singleton, String.intercalate_singleton, run_text hs]
    exact (addSpan?_name hs total).trans (Option.bind_fun_some _).symm
  | cons x ss ih =>
    obtain ⟨hs, hss⟩ := List.forall_mem_cons.1 h
    have hblank : TextState.step ⟨total, any, .unit s.count none s.name.toList⟩ ' ' =
        (total.addSpan s).map fun t => ⟨t, true, .outside⟩ := by
      rw [← addSpan?_name hs, Option.map_eq_bind]
      rfl
    rw [List.map_cons, List.map_cons, String.intercalate_cons_cons, String.append_assoc,
      String.toList_append, String.toList_append, List.foldlM_append, run_text hs]
    show ((TextState.step _ ' ').bind _).bind _ = _
    rw [hblank, List.foldlM_cons]
    cases total.addSpan s with
    | none => rfl
    | some t => exact ih hss

end Reading

/-! ## Sums of spans -/

theorem toNanos_lt (d : Duration) : d.toNanos < wordLimit * nanosPerSecond := by
  have hsecs := d.secs_lt
  have hnanos := d.nanos_lt
  unfold toNanos nanosPerSecond at *
  omega

/-- Seconds and nanoseconds that are no more than some duration make a duration. -/
theorem ofParts?_of_le {target : Duration} {secs nanos : Nat}
    (h : secs * nanosPerSecond + nanos ≤ target.toNanos) :
    ∃ d, ofParts? secs nanos = some d ∧ d.toNanos = secs * nanosPerSecond + nanos := by
  have hfits : secs + nanos / nanosPerSecond < wordLimit := by
    have hlt := target.toNanos_lt
    unfold nanosPerSecond at *
    omega
  refine ⟨_, dif_pos hfits, ?_⟩
  show (secs + nanos / nanosPerSecond) * nanosPerSecond + nanos % nanosPerSecond = _
  unfold nanosPerSecond
  omega

theorem add?_of_le {d target : Duration} {secs nanos length : Nat}
    (hlength : secs * nanosPerSecond + nanos = length) (hnanos : nanos < nanosPerSecond)
    (h : d.toNanos + length ≤ target.toNanos) :
    ∃ d', d.add? secs nanos = some d' ∧ d'.toNanos = d.toNanos + length := by
  have hsum : (d.secs + secs) * nanosPerSecond + (d.nanos + nanos) = d.toNanos + length := by
    rw [toNanos, Nat.add_mul]
    omega
  have hword : d.nanos + nanos < wordLimit := by
    have := d.nanos_lt
    unfold nanosPerSecond wordLimit at *
    omega
  rw [← hsum] at h ⊢
  rw [add?, if_pos hword]
  exact ofParts?_of_le h

/-- Units below a second are written for less than a second only. -/
def Span.Small (s : Span) : Prop := s.unit.isSubsecond = true → s.toNanos < nanosPerSecond

/-- A span is added if the sum is no more than some duration. -/
theorem addSpan_of_le {d target : Duration} {s : Span} (hsmall : s.Small)
    (h : d.toNanos + s.toNanos ≤ target.toNanos) :
    ∃ d', d.addSpan s = some d' ∧ d'.toNanos = d.toNanos + s.toNanos := by
  unfold Span.Small at hsmall
  unfold addSpan addWhole?
  unfold Span.toNanos at *
  generalize s.count * s.unit.size = n at *
  cases hunit : s.unit.isSubsecond with
  | true =>
    simp only [hunit, if_true, Nat.mul_one, forall_const] at *
    have hword : n < wordLimit := Nat.lt_trans hsmall (by decide)
    rw [if_pos hword]
    exact add?_of_le (by rw [Nat.zero_mul, Nat.zero_add]) hsmall h
  | false =>
    simp only [hunit, if_false, Bool.false_eq_true] at *
    have hword : n < wordLimit := by
      have := target.toNanos_lt
      unfold nanosPerSecond at *
      omega
    rw [if_pos hword]
    exact add?_of_le (Nat.add_zero _) (by decide) h

theorem foldlM_addSpan {target : Duration} {ss : List Span} (hsmall : ∀ s ∈ ss, s.Small)
    {d : Duration} (h : d.toNanos + (ss.map Span.toNanos).sum ≤ target.toNanos) :
    ∃ d', ss.foldlM addSpan d = some d' ∧ d'.toNanos = d.toNanos + (ss.map Span.toNanos).sum := by
  induction ss generalizing d with
  | nil => exact ⟨d, rfl, by rw [List.map_nil, List.sum_nil, Nat.add_zero]⟩
  | cons s ss ih =>
    obtain ⟨hs, hss⟩ := List.forall_mem_cons.1 hsmall
    rw [List.map_cons, List.sum_cons, ← Nat.add_assoc] at h ⊢
    obtain ⟨d₁, hfirst, hd₁⟩ := addSpan_of_le hs (Nat.le_trans (Nat.le_add_right _ _) h)
    rw [← hd₁] at h ⊢
    obtain ⟨d', hrest, hd'⟩ := ih hss h
    refine ⟨d', ?_, hd'⟩
    rw [List.foldlM_cons, hfirst]
    exact hrest

theorem addSpan_zero {s : Span} (h : s.count = 0) (d : Duration) : d.addSpan s = some d := by
  have hzero : s.toNanos = 0 := by rw [Span.toNanos, h, Nat.zero_mul, Nat.zero_mul]
  have hsmall : s.Small := by
    intro _
    rw [hzero]
    decide
  have hsum : d.toNanos + s.toNanos = d.toNanos := by rw [hzero, Nat.add_zero]
  obtain ⟨d', hd', hsum'⟩ := addSpan_of_le hsmall (Nat.le_of_eq hsum)
  rw [hd', toNanos_inj (hsum'.trans hsum)]

/-- Spans that are zero are left out of a text without a change to the sum. -/
theorem foldlM_addSpan_filter (ss : List Span) (d : Duration) :
    (ss.filter (·.count ≠ 0)).foldlM addSpan d = ss.foldlM addSpan d := by
  induction ss generalizing d with
  | nil => rfl
  | cons s ss ih =>
    by_cases hs : s.count = 0
    · rw [List.filter_cons_of_neg (by simpa using hs), ih, List.foldlM_cons, addSpan_zero hs]
      rfl
    · rw [List.filter_cons_of_pos (by simpa using hs), List.foldlM_cons, List.foldlM_cons]
      cases d.addSpan s with
      | none => rfl
      | some d' => exact ih d'

/-! ## The spans of a duration -/

/-- A span of a unit that is spelt out, with the plural from two on. -/
def Span.long (n : Nat) (name : String) (unit : TimeUnit) : Span :=
  ⟨n, name ++ (if n > 1 then "s" else ""), unit⟩

/-- The spans of a duration, those included that are zero. -/
def parts (d : Duration) : List Span :=
  let inYear := d.secs % TimeUnit.year.size
  let inMonth := inYear % TimeUnit.month.size
  let inDay := inMonth % TimeUnit.day.size
  [.long (d.secs / TimeUnit.year.size) "year" .year,
    .long (inYear / TimeUnit.month.size) "month" .month,
    .long (inMonth / TimeUnit.day.size) "day" .day,
    ⟨inDay / 3600, "h", .hour⟩, ⟨inDay % 3600 / 60, "m", .minute⟩, ⟨inDay % 60, "s", .second⟩,
    ⟨d.nanos / 1000000, "ms", .milli⟩, ⟨d.nanos / 1000 % 1000, "us", .micro⟩,
    ⟨d.nanos % 1000, "ns", .nano⟩]

theorem text?_long (n : Nat) (name : String) (unit : TimeUnit) :
    (Span.long n name unit).text? = writeLong n name := by
  rw [Span.text?, Span.text, Span.long, writeLong, String.append_assoc]

theorem text?_short (n : Nat) (name : String) (unit : TimeUnit) :
    Span.text? ⟨n, name, unit⟩ = writeShort n name := rfl

theorem filterMap_text? (ss : List Span) :
    ss.filterMap Span.text? = (ss.filter (·.count ≠ 0)).map Span.text := by
  induction ss with
  | nil => rfl
  | cons s ss ih =>
    by_cases hs : s.count = 0
    · have htext : s.text? = none := if_pos hs
      rw [List.filter_cons_of_neg (by simpa using hs), List.filterMap_cons_none htext, ih]
    · have htext : s.text? = some s.text := if_neg hs
      rw [List.filter_cons_of_pos (by simpa using hs), List.filterMap_cons_some htext, ih,
        List.map_cons]

theorem spans_eq (d : Duration) : d.spans = (d.parts.filter (·.count ≠ 0)).map Span.text := by
  have hspans : d.spans = (d.parts.map Span.text?).filterMap id := by
    simp only [parts, spans, List.map_cons, List.map_nil, text?_long, text?_short]
  rw [hspans, List.filterMap_map, ← filterMap_text?]
  rfl

/-- A unit may be spelt out if its name stands for it with and without the plural. -/
theorem names_long {name : String} {unit : TimeUnit} (hone : Names name unit)
    (hmany : Names (name ++ "s") unit) (n : Nat) : Names (Span.long n name unit).name unit := by
  unfold Span.long
  split
  · exact hmany
  · rwa [String.append_empty]

theorem names_parts (d : Duration) : ∀ s ∈ d.parts, Names s.name s.unit := by
  intro s hs
  simp only [parts, List.mem_cons, List.not_mem_nil, or_false] at hs
  rcases hs with rfl | rfl | rfl | rfl | rfl | rfl | rfl | rfl | rfl
  · exact names_long ⟨rfl, rfl⟩ ⟨rfl, rfl⟩ _
  · exact names_long ⟨rfl, rfl⟩ ⟨rfl, rfl⟩ _
  · exact names_long ⟨rfl, rfl⟩ ⟨rfl, rfl⟩ _
  all_goals
    dsimp only
    exact ⟨rfl, rfl⟩

theorem small_parts (d : Duration) : ∀ s ∈ d.parts, s.Small := by
  intro s hs
  have hnanos := d.nanos_lt
  unfold nanosPerSecond at hnanos
  simp only [parts, List.mem_cons, List.not_mem_nil, or_false] at hs
  rcases hs with rfl | rfl | rfl | rfl | rfl | rfl | rfl | rfl | rfl
  all_goals intro hsubsecond
  -- the units from seconds on are none of those below
  all_goals try cases hsubsecond
  · show d.nanos / 1000000 * 1000000 * 1 < 1000000000
    omega
  · show d.nanos / 1000 % 1000 * 1000 * 1 < 1000000000
    omega
  · show d.nanos % 1000 * 1 * 1 < 1000000000
    omega

theorem map_toNanos_parts (d : Duration) :
    d.parts.map Span.toNanos =
      [d.secs / 31557600 * 31557600 * nanosPerSecond,
        d.secs % 31557600 / 2630016 * 2630016 * nanosPerSecond,
        d.secs % 31557600 % 2630016 / 86400 * 86400 * nanosPerSecond,
        d.secs % 31557600 % 2630016 % 86400 / 3600 * 3600 * nanosPerSecond,
        d.secs % 31557600 % 2630016 % 86400 % 3600 / 60 * 60 * nanosPerSecond,
        d.secs % 31557600 % 2630016 % 86400 % 60 * 1 * nanosPerSecond,
        d.nanos / 1000000 * 1000000 * 1, d.nanos / 1000 % 1000 * 1000 * 1,
        d.nanos % 1000 * 1 * 1] := rfl

/-- The spans of a duration add up to it. -/
theorem sum_parts (d : Duration) : (d.parts.map Span.toNanos).sum = d.toNanos := by
  rw [map_toNanos_parts]
  repeat rw [List.sum_cons]
  rw [List.sum_nil, toNanos]
  unfold nanosPerSecond
  omega

theorem foldlM_parts (d : Duration) : d.parts.foldlM addSpan zero = some d := by
  have hsum : zero.toNanos + (d.parts.map Span.toNanos).sum = d.toNanos := by
    rw [sum_parts]
    exact Nat.zero_add _
  obtain ⟨d', hd', hsum'⟩ := foldlM_addSpan d.small_parts (Nat.le_of_eq hsum)
  rw [hd', toNanos_inj (hsum'.trans hsum)]

/-- **A duration is read back from its text.** -/
theorem read?_write (d : Duration) : read? d.write = some d := by
  by_cases hzero : d = zero
  · rw [hzero]
    rfl
  · have hwrite : d.write = " ".intercalate d.spans := by
      refine if_neg fun h => hzero ?_
      simp only [isZero, Bool.and_eq_true, beq_iff_eq] at h
      refine toNanos_inj ?_
      rw [toNanos, h.1, h.2]
      rfl
    have hsum : (d.parts.filter (·.count ≠ 0)).foldlM addSpan zero = some d := by
      rw [foldlM_addSpan_filter, foldlM_parts]
    have hread : (d.write.toList.foldlM TextState.step .start).bind TextState.finish = some d := by
      rw [hwrite, spans_eq]
      cases hparts : d.parts.filter (·.count ≠ 0) with
      | nil =>
        -- without a span the sum would be zero
        rw [hparts] at hsum
        exact absurd (Option.some.inj hsum).symm hzero
      | cons s ss =>
        rw [hparts] at hsum
        rw [← hsum]
        exact run_spans fun x hx => d.names_parts x (List.mem_filter.1 (hparts ▸ hx)).1
    rw [read?, if_neg, hread]
    -- the text that is no sum of spans leaves the reader inside one
    intro htext
    rw [htext] at hread
    cases hread

example : longest.write = "584542046090years 7months 15days 17h 5m 3s 999ms 999us 999ns" := by
  decide

end AlertFlow.Duration
