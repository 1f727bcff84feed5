import AlertFlow.Number.Word

/-!
Natural numbers written in decimal digits, as identifiers and settings spell them: an optional plus
sign, one or more ASCII digits, and a bound that the value may not reach.
-/
namespace AlertFlow.Decimal

def value? (c : Char) : Option Nat :=
  if '0' ≤ c ∧ c ≤ '9' then some (c.toNat - '0'.toNat) else none

def isDigit (c : Char) : Bool := '0' ≤ c && c ≤ '9'

/-- Appends the digits to a number already read; `none` at the first character that is no digit. -/
def readFrom (n : Nat) : List Char → Option Nat
  | [] => some n
  | c :: cs =>
    match value? c with
    | some d => readFrom (10 * n + d) cs
    | none => none

/-- The number that one or more digits denote. -/
def read? : List Char → Option Nat
  | [] => none
  | cs => readFrom 0 cs

/-- As `read?`, with an optional plus sign in front. -/
def readSigned? : List Char → Option Nat
  | '+' :: cs => read? cs
  | cs => read? cs

/-- An unsigned 64-bit number as text: an optional plus sign and digits whose value fits. -/
def readWord? (text : String) : Option Nat :=
  (readSigned? text.toList).filter (· < wordLimit)

/-- The digits of a number, without leading zeros. -/
def write (n : Nat) : List Char := Nat.toDigits 10 n

/-- The digits of an integer, behind a minus sign if it is negative. -/
def writeInt (n : Int) : List Char := if n < 0 then '-' :: write n.natAbs else write n.natAbs

/-- The digits of a number, padded with zeros to at least `width` places. -/
def writePadded (width n : Nat) : List Char :=
  List.replicate (width - (write n).length) '0' ++ write n

end AlertFlow.Decimal
