import AlertFlow.Number.Word

/-!
Lengths of time: seconds and nanoseconds, the seconds below 2^64 and the nanoseconds below one
second, so that each length has one value.
-/
namespace AlertFlow

def nanosPerSecond : Nat := 1000000000

structure Duration where
  secs : Nat
  nanos : Nat
  secs_lt : secs < wordLimit := by decide
  nanos_lt : nanos < nanosPerSecond := by decide
deriving DecidableEq

namespace Duration

/-- The length of a count of seconds and nanoseconds, if the seconds fit. -/
def ofParts? (secs nanos : Nat) : Option Duration :=
  if h : secs + nanos / nanosPerSecond < wordLimit then
    some ⟨secs + nanos / nanosPerSecond, nanos % nanosPerSecond, h, Nat.mod_lt _ (by decide)⟩
  else none

def zero : Duration := { secs := 0, nanos := 0 }

def longest : Duration := { secs := wordLimit - 1, nanos := nanosPerSecond - 1 }

/-- A length of whole seconds; one too long for the clock counts as the longest. -/
def ofSecs (n : Nat) : Duration := (ofParts? n 0).getD longest

/-- A length of whole milliseconds; one too long for the clock counts as the longest. -/
def ofMillis (n : Nat) : Duration :=
  (ofParts? (n / 1000) (n % 1000 * 1000000)).getD longest

def isZero (d : Duration) : Bool := d.secs == 0 && d.nanos == 0

def toNanos (d : Duration) : Nat := d.secs * nanosPerSecond + d.nanos

/-- Whole milliseconds, a begun one counting as a full one: clocks tick in milliseconds. -/
def ticks (d : Duration) : Nat := (d.toNanos + 999999) / 1000000

instance : Inhabited Duration := ⟨zero⟩

instance : LE Duration := ⟨fun a b => a.toNanos ≤ b.toNanos⟩

instance : DecidableLE Duration := fun a b => inferInstanceAs (Decidable (a.toNanos ≤ b.toNanos))

def max (a b : Duration) : Duration := if a ≤ b then b else a

theorem toNanos_inj {a b : Duration} (h : a.toNanos = b.toNanos) : a = b := by
  obtain ⟨s, n, hs, hn⟩ := a
  obtain ⟨s', n', hs', hn'⟩ := b
  simp only [toNanos, nanosPerSecond] at h hn hn'
  obtain ⟨rfl, rfl⟩ : s = s' ∧ n = n' := by omega
  rfl

end Duration

end AlertFlow
