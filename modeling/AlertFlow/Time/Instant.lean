import AlertFlow.Time.Calendar
import AlertFlow.Time.Duration

/-!
Instants: seconds since 1 January 1970 and nanoseconds within the second. A leap second has no
second of its own: it is the second before it with a full second and more of nanoseconds, and so
lies after that second and before the next. Instants are bounded by the calendar's range of years.
-/
namespace AlertFlow

structure Instant where
  secs : Int
  nanos : Nat
deriving DecidableEq, Repr

namespace Instant

instance : Inhabited Instant := ⟨⟨0, 0⟩⟩

/-- The years that have instants. -/
def minYear : Int := -262143

def maxYear : Int := 262142

/-- The first second that can be represented. -/
def minSecs : Int := (Date.mk minYear 1 1).toDays * 86400

/-- The last second that can be represented. -/
def maxSecs : Int := (Date.mk maxYear 12 31).toDays * 86400 + 86399

/-- An instant inside the range of years; a leap second counts as part of the second before it. -/
def InRange (t : Instant) : Prop :=
  minSecs ≤ t.secs ∧ t.secs ≤ maxSecs ∧ t.nanos < 2 * nanosPerSecond

instance (t : Instant) : Decidable t.InRange := inferInstanceAs (Decidable (_ ∧ _))

/-- Whether the instant lies in a leap second. -/
def isLeap (t : Instant) : Bool := nanosPerSecond ≤ t.nanos

instance : LT Instant := ⟨fun a b => a.secs < b.secs ∨ a.secs = b.secs ∧ a.nanos < b.nanos⟩

instance : LE Instant := ⟨fun a b => ¬ b < a⟩

instance : DecidableLT Instant := fun a b =>
  inferInstanceAs (Decidable (a.secs < b.secs ∨ a.secs = b.secs ∧ a.nanos < b.nanos))

instance : DecidableLE Instant := fun a b => inferInstanceAs (Decidable (¬ b < a))

theorem le_iff {a b : Instant} : a ≤ b ↔ a.secs < b.secs ∨ a.secs = b.secs ∧ a.nanos ≤ b.nanos := by
  show ¬ (b.secs < a.secs ∨ b.secs = a.secs ∧ b.nanos < a.nanos) ↔ _
  omega

theorem le_trans {a b c : Instant} (hab : a ≤ b) (hbc : b ≤ c) : a ≤ c := by
  rw [le_iff] at *
  omega

/-- The instant a length of time later. From inside a leap second, a length that does not lead out
of it only adds nanoseconds; any other leaves the leap second as if it had been an ordinary one. -/
def later (t : Instant) (d : Duration) : Instant :=
  if t.isLeap then
    if 0 < d.secs ∨ 2 * nanosPerSecond ≤ t.nanos + d.nanos then
      let nanos := t.nanos - nanosPerSecond + d.nanos
      ⟨t.secs + d.secs + (nanos / nanosPerSecond : Nat), nanos % nanosPerSecond⟩
    else ⟨t.secs, t.nanos + d.nanos⟩
  else
    let nanos := t.nanos + d.nanos
    ⟨t.secs + d.secs + (nanos / nanosPerSecond : Nat), nanos % nanosPerSecond⟩

/-- The longest length that can be added to an instant: 2^63 - 1 milliseconds. -/
def longestStep : Duration := { secs := 9223372036854775, nanos := 807000000 }

/-- The instant a length of time later, if the length can be added and the sum is in range. -/
def later? (t : Instant) (d : Duration) : Option Instant :=
  if d ≤ longestStep ∧ (t.later d).secs ≤ maxSecs then some (t.later d) else none

/-- The instant some milliseconds later. -/
def afterMillis (t : Instant) (ms : Nat) : Instant := t.later (.ofMillis ms)

end Instant

end AlertFlow
