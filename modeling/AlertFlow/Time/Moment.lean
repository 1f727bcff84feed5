import AlertFlow.Time.Instant

/-!
Moments: readings of the two clocks of a running system. Timers count ticks of one millisecond since
some start; alerts are compared with wall time.
-/
namespace AlertFlow

/-- A reading of both clocks. -/
structure Moment where
  tick : Nat
  wall : Instant

/-- The moment some ticks later, both clocks having run on. -/
def Moment.after (m : Moment) (ticks : Nat) : Moment :=
  ⟨m.tick + ticks, m.wall.afterMillis ticks⟩

/-- Whether a timer of this length is beyond the range of the clock, which counts seconds in a
signed 64-bit number. A timer set to it never fires, and whatever waits for it is lost. The range is
taken to begin now: the time that the clock has shown already, by which it is shorter, is not
counted, so lengths that stay below the bound by less than this pass for lengths in range. -/
def Duration.exceedsClock (d : Duration) : Bool := signedLimit ≤ d.secs

end AlertFlow
