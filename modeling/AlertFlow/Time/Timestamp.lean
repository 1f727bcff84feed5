import AlertFlow.Text.Blank
import AlertFlow.Text.Decimal
import AlertFlow.Time.Instant

/-!
The text form of an instant: date, time of day and offset from UTC. The writer always uses UTC,
four digits of year or a sign and at least four, and as many fraction digits (none, three, six or
nine) as lose nothing. The reader is more lenient: single-digit fields, other separators and
offsets, blanks in front of numbers. A reader of a part gives back the rest of the text.
-/
namespace AlertFlow.Timestamp

/-- At most `limit` digits in front of a text: their value, their count and the rest. -/
def digits : (limit value count : Nat) → List Char → Nat × Nat × List Char
  | 0, v, n, cs => (v, n, cs)
  | _ + 1, v, n, [] => (v, n, [])
  | k + 1, v, n, c :: cs =>
    match Decimal.value? c with
    | some d => digits k (10 * v + d) (n + 1) cs
    | none => (v, n, c :: cs)

/-- A number of one to `limit` digits. -/
def number? (limit : Nat) (cs : List Char) : Option (Nat × List Char) :=
  match digits limit 0 0 cs with
  | (_, 0, _) => none
  | (v, _ + 1, rest) => some (v, rest)

/-- A number of one or two digits, blanks allowed in front. -/
def field? (cs : List Char) : Option (Nat × List Char) := number? 2 (dropBlanks cs)

def char? (c : Char) : List Char → Option (List Char)
  | c' :: cs => if c' = c then some cs else none
  | [] => none

/-- A year: one to four digits, or a sign and any number of digits; blanks allowed in front. -/
def year? (cs : List Char) : Option (Int × List Char) :=
  match dropBlanks cs with
  | '-' :: cs => (number? cs.length cs).map fun p => (-(p.1 : Int), p.2)
  | '+' :: cs => (number? cs.length cs).map fun p => ((p.1 : Int), p.2)
  | cs => (number? 4 cs).map fun p => ((p.1 : Int), p.2)

/-- The nanoseconds of an optional fraction of a second; digits past the ninth are dropped. -/
def fraction? : List Char → Option (Nat × List Char)
  | '.' :: cs =>
    match digits 9 0 0 cs with
    | (_, 0, _) => none
    | (v, n + 1, rest) => some (v * Nat.pow 10 (9 - (n + 1)), rest.dropWhile Decimal.isDigit)
  | cs => some (0, cs)

def twoDigits? : List Char → Option (Nat × List Char)
  | a :: b :: cs =>
    match Decimal.value? a, Decimal.value? b with
    | some x, some y => some (10 * x + y, cs)
    | _, _ => none
  | _ => none

/-- The seconds of an offset behind its sign: hours below 24, minutes below 60, colons and blanks
between them passed over. -/
def offsetSize? (cs : List Char) : Option (Int × List Char) := do
  let (hours, cs) ← twoDigits? cs
  let (minutes, cs) ← twoDigits? (cs.dropWhile fun c => c = ':' || isBlank c)
  if hours < 24 ∧ minutes < 60 then some ((hours * 3600 + minutes * 60 : Nat), cs) else none

/-- The seconds by which local time is ahead of UTC. -/
def offset? (cs : List Char) : Option (Int × List Char) :=
  if (cs.take 3).map Char.toUpper = ['U', 'T', 'C'] then some (0, cs.drop 3)
  else match cs with
    | 'Z' :: cs => some (0, cs)
    | 'z' :: cs => some (0, cs)
    | '+' :: cs => offsetSize? cs
    | '-' :: cs => (offsetSize? cs).map fun p => (-p.1, p.2)
    | '\u2212' :: cs => (offsetSize? cs).map fun p => (-p.1, p.2)
    | _ => none

/-- What a text says before it is checked. -/
structure Fields where
  date : Date
  hour : Nat
  minute : Nat
  second : Nat
  nanos : Nat
  offset : Int
deriving Repr

def fields? (cs : List Char) : Option Fields := do
  let (year, cs) ← year? cs
  let cs ← char? '-' cs
  let (month, cs) ← field? cs
  let cs ← char? '-' cs
  let (day, cs) ← field? cs
  let cs ← match cs with
    | 'T' :: cs => some cs
    | 't' :: cs => some cs
    | ' ' :: cs => some cs
    | _ => none
  let (hour, cs) ← field? cs
  let cs ← char? ':' cs
  let (minute, cs) ← field? cs
  let cs ← char? ':' cs
  let (second, cs) ← field? cs
  let (nanos, cs) ← fraction? cs
  let (offset, cs) ← offset? (dropBlanks cs)
  if (dropBlanks cs).isEmpty then some ⟨⟨year, month, day⟩, hour, minute, second, nanos, offset⟩
  else none

/-- The instant that the fields name, if date and time exist and the instant is in range. The leap
second is the last nanoseconds of the second before it. -/
def Fields.instant? (f : Fields) : Option Instant :=
  if f.date.Exists ∧ Instant.minYear ≤ f.date.year ∧ f.date.year ≤ Instant.maxYear ∧ f.hour < 24 ∧
      f.minute < 60 ∧ f.second ≤ 60 then
    let second := if f.second = 60 then 59 else f.second
    let nanos := if f.second = 60 then f.nanos + nanosPerSecond else f.nanos
    let secs := f.date.toDays * 86400 + (f.hour * 3600 + f.minute * 60 + second : Nat) - f.offset
    if Instant.minSecs ≤ secs ∧ secs ≤ Instant.maxSecs then some ⟨secs, nanos⟩ else none
  else none

def read? (text : String) : Option Instant := (fields? text.toList).bind Fields.instant?

/-- The digits of a year, signed outside 0 to 9999. -/
def writeYear (y : Int) : List Char :=
  if 0 ≤ y ∧ y ≤ 9999 then Decimal.writePadded 4 y.toNat
  else (if y < 0 then '-' else '+') :: Decimal.writePadded 4 y.natAbs

/-- The fraction digits that nanoseconds below one second need. -/
def writeFraction (nanos : Nat) : List Char :=
  if nanos = 0 then []
  else if nanos % 1000000 = 0 then '.' :: Decimal.writePadded 3 (nanos / 1000000)
  else if nanos % 1000 = 0 then '.' :: Decimal.writePadded 6 (nanos / 1000)
  else '.' :: Decimal.writePadded 9 nanos

def write (t : Instant) : String :=
  let date := Date.ofDays (t.secs / 86400)
  let secondOfDay := (t.secs % 86400).toNat
  let second := secondOfDay % 60 + t.nanos / nanosPerSecond
  String.ofList <|
    writeYear date.year ++ '-' :: Decimal.writePadded 2 date.month ++
    '-' :: Decimal.writePadded 2 date.day ++
    'T' :: Decimal.writePadded 2 (secondOfDay / 3600) ++
    ':' :: Decimal.writePadded 2 (secondOfDay % 3600 / 60) ++
    ':' :: Decimal.writePadded 2 second ++
    writeFraction (t.nanos % nanosPerSecond) ++ ['Z']

end AlertFlow.Timestamp
