/-!
The proleptic Gregorian calendar. Days are counted from 1 January 1970. Inside the computation a
year begins in March, so that the leap day is its last day and months have a regular length; 400
years are one cycle of 146097 days.
-/
namespace AlertFlow

structure Date where
  year : Int
  month : Nat
  day : Nat
deriving DecidableEq, Repr

namespace Date

/-- Whether a year has a 29 February. -/
def isLeapYear (year : Int) : Bool := year % 4 == 0 && (year % 100 != 0 || year % 400 == 0)

def daysInMonth (year : Int) (month : Nat) : Nat :=
  if month = 2 then (if isLeapYear year then 29 else 28)
  else if month = 4 ∨ month = 6 ∨ month = 9 ∨ month = 11 then 30
  else 31

def Exists (d : Date) : Prop :=
  1 ≤ d.month ∧ d.month ≤ 12 ∧ 1 ≤ d.day ∧ d.day ≤ daysInMonth d.year d.month

instance (d : Date) : Decidable d.Exists := inferInstanceAs (Decidable (_ ∧ _))

/-- The day of the March-based year on which a March-based month begins. -/
def monthStart (m : Nat) : Nat := (153 * m + 2) / 5

/-- Days from 1 March of year 0 to 1 January 1970. -/
def epochOffset : Int := 719468

/-- The number of a day, counted from 1 January 1970. -/
def toDays (d : Date) : Int :=
  let year := if d.month ≤ 2 then d.year - 1 else d.year
  let month := (d.month + 9) % 12
  let cycle := year / 400
  let yearOfCycle := year % 400
  let dayOfYear : Int := monthStart month + d.day - 1
  let dayOfCycle := yearOfCycle * 365 + yearOfCycle / 4 - yearOfCycle / 100 + dayOfYear
  cycle * 146097 + dayOfCycle - epochOffset

/-- The day with a number. -/
def ofDays (n : Int) : Date :=
  let shifted := n + epochOffset
  let cycle := shifted / 146097
  let dayOfCycle := (shifted % 146097).toNat
  let century := min (dayOfCycle / 36524) 3
  let dayOfCentury := dayOfCycle - century * 36524
  let leapCycle := dayOfCentury / 1461
  let dayOfLeapCycle := dayOfCentury - leapCycle * 1461
  let yearOfLeapCycle := min (dayOfLeapCycle / 365) 3
  let dayOfYear := dayOfLeapCycle - yearOfLeapCycle * 365
  let month := (5 * dayOfYear + 2) / 153
  let year : Int := cycle * 400 + (century * 100 + leapCycle * 4 + yearOfLeapCycle : Nat)
  { year := if month < 10 then year else year + 1
    month := if month < 10 then month + 3 else month - 9
    day := dayOfYear - monthStart month + 1 }

end Date

end AlertFlow
