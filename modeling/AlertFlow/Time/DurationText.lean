import AlertFlow.Text.Blank
import AlertFlow.Text.Decimal
import AlertFlow.Time.Duration

/-!
The text form of a length of time: a sum of spans such as `1h 30m`, each a number with an optional
fraction and a unit. The reader goes through the text once, one character at a time, with the sum so
far and what it has of the current span; spans may come in any order and repeat. The writer uses
each unit at most once, from years down to nanoseconds, and leaves out what is zero.
-/
namespace AlertFlow

/-- The units in which a span can be given. -/
inductive TimeUnit where
  | nano | micro | milli | second | minute | hour | day | week | month | year
deriving DecidableEq, Repr

namespace TimeUnit

def names : TimeUnit → List String
  | nano => ["nanos", "nsec", "ns"]
  | micro => ["usec", "us", "\u00b5s"]
  | milli => ["millis", "msec", "ms"]
  | second => ["seconds", "second", "secs", "sec", "s"]
  | minute => ["minutes", "minute", "min", "mins", "m"]
  | hour => ["hours", "hour", "hr", "hrs", "h"]
  | day => ["days", "day", "d"]
  | week => ["weeks", "week", "wk", "wks", "w"]
  | month => ["months", "month", "M"]
  | year => ["years", "year", "yr", "yrs", "y"]

def all : List TimeUnit := [nano, micro, milli, second, minute, hour, day, week, month, year]

/-- The unit with a spelling, case mattering. -/
def ofName? (name : String) : Option TimeUnit := all.find? (·.names.contains name)

/-- The length of a unit in nanoseconds for the units below a second, in seconds for the others. -/
def size : TimeUnit → Nat
  | nano => 1
  | micro => 1000
  | milli => 1000000
  | second => 1
  | minute => 60
  | hour => 3600
  | day => 86400
  | week => 604800
  | month => 2630016
  | year => 31557600

/-- Whether the unit is shorter than a second. -/
def isSubsecond : TimeUnit → Bool
  | nano | micro | milli => true
  | _ => false

end TimeUnit

/-- The digits behind a decimal point: their number and their count. -/
structure DecimalFraction where
  numerator : Nat
  places : Nat
deriving DecidableEq, Repr

namespace Duration

/-- Adds seconds and nanoseconds, as long as every sum fits 64 bits. -/
def add? (d : Duration) (secs nanos : Nat) : Option Duration :=
  if d.nanos + nanos < wordLimit then ofParts? (d.secs + secs) (d.nanos + nanos) else none

/-- Adds a whole number of units. -/
def addWhole? (d : Duration) (n : Nat) (u : TimeUnit) : Option Duration :=
  if n * u.size < wordLimit then
    if u.isSubsecond then d.add? 0 (n * u.size) else d.add? (n * u.size) 0
  else none

/-- The unit in which a fraction must come out whole: nanoseconds up to minutes, seconds above. -/
def fractionSize : TimeUnit → Nat
  | .second => nanosPerSecond
  | .minute => 60 * nanosPerSecond
  | u => u.size

/-- Adds a fraction of a unit, which must come out whole; a nanosecond has no fraction. -/
def addFraction? (d : Duration) (f : DecimalFraction) (u : TimeUnit) : Option Duration :=
  let product := f.numerator * fractionSize u
  let parts := Nat.pow 10 f.places
  if u ≠ .nano ∧ product < wordLimit ∧ parts < wordLimit ∧ product % parts = 0 then
    if u.isSubsecond ∨ u = .second ∨ u = .minute then d.add? 0 (product / parts)
    else d.add? (product / parts) 0
  else none

/-- Where the reader stands inside a span. -/
inductive SpanState where
  | outside
  | whole (n : Nat)
  | fraction (n : Nat) (f : DecimalFraction)
  /-- In a unit, with its letters so far. -/
  | unit (n : Nat) (f : Option DecimalFraction) (letters : List Char)

/-- The reader's state: the sum of the spans that are complete, whether there is one, and the
current span. -/
structure TextState where
  total : Duration
  any : Bool
  span : SpanState

def TextState.start : TextState := ⟨zero, false, .outside⟩

/-- A letter that can stand in the name of a unit. -/
def isUnitLetter (c : Char) : Bool := ('a' ≤ c && c ≤ 'z') || ('A' ≤ c && c ≤ 'Z') || c == '\u00b5'

def addSpan? (d : Duration) (n : Nat) (f : Option DecimalFraction) (letters : List Char) :
    Option Duration := do
  let u ← TimeUnit.ofName? (String.ofList letters)
  let d ← d.addWhole? n u
  match f with
  | none => some d
  | some f => d.addFraction? f u

def TextState.step (s : TextState) (c : Char) : Option TextState :=
  match s.span, Decimal.value? c with
  | .outside, some v => some { s with span := .whole v }
  | .outside, none => if isBlank c then some s else none
  | .whole n, some v => some { s with span := .whole (10 * n + v) }
  | .whole n, none =>
    if isBlank c then some s
    else if isUnitLetter c then some { s with span := .unit n none [c] }
    else if c = '.' then some { s with span := .fraction n ⟨0, 0⟩ }
    else none
  | .fraction n f, some v =>
    some { s with span := .fraction n ⟨10 * f.numerator + v, f.places + 1⟩ }
  | .fraction n f, none =>
    if isBlank c then some s
    else if isUnitLetter c ∧ f.places ≠ 0 then some { s with span := .unit n (some f) [c] }
    else none
  | .unit n f letters, some v => do
    let total ← addSpan? s.total n f letters
    some ⟨total, true, .whole v⟩
  | .unit n f letters, none =>
    if isBlank c then do
      let total ← addSpan? s.total n f letters
      some ⟨total, true, .outside⟩
    else if isUnitLetter c then some { s with span := .unit n f (letters ++ [c]) }
    else none

/-- The sum at the end of the text: a span must be complete, and there must be one. -/
def TextState.finish (s : TextState) : Option Duration :=
  match s.span with
  | .outside => if s.any then some s.total else none
  | .unit n f letters => addSpan? s.total n f letters
  | _ => none

/-- Reads the sum of the spans of a text; the text `0` alone is no time. -/
def read? (text : String) : Option Duration :=
  if text = "0" then some zero
  else (text.toList.foldlM TextState.step .start).bind TextState.finish

/-- A span of a long unit, with the plural from two on. -/
def writeLong (n : Nat) (name : String) : Option String :=
  if n = 0 then none
  else some (String.ofList (Decimal.write n) ++ name ++ (if n > 1 then "s" else ""))

/-- A span of a short unit. -/
def writeShort (n : Nat) (name : String) : Option String :=
  if n = 0 then none else some (String.ofList (Decimal.write n) ++ name)

/-- The spans of a length, from years down, without those that are zero. -/
def spans (d : Duration) : List String :=
  let inYear := d.secs % TimeUnit.year.size
  let inMonth := inYear % TimeUnit.month.size
  let inDay := inMonth % TimeUnit.day.size
  [writeLong (d.secs / TimeUnit.year.size) "year",
    writeLong (inYear / TimeUnit.month.size) "month",
    writeLong (inMonth / TimeUnit.day.size) "day",
    writeShort (inDay / 3600) "h",
    writeShort (inDay % 3600 / 60) "m",
    writeShort (inDay % 60) "s",
    writeShort (d.nanos / 1000000) "ms",
    writeShort (d.nanos / 1000 % 1000) "us",
    writeShort (d.nanos % 1000) "ns"].filterMap id

def write (d : Duration) : String := if d.isZero then "0s" else " ".intercalate d.spans

end Duration

end AlertFlow
