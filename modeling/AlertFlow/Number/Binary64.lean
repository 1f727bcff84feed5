import AlertFlow.Text.Decimal

/-!
Numbers with a fraction, as settings hold them: the 64-bit binary floating-point numbers, each kept
as a whole number times a power of two. A number written in decimal stands for the nearest of them,
of two equally near the one with the even whole number; from half a step above the largest on it is
infinite. Everything is exact arithmetic on natural numbers.
-/
namespace AlertFlow

/-- A binary floating-point number that is not infinite is `mantissa * 2 ^ exponent`; the mantissa
has 53 bits, or fewer with the least exponent. -/
inductive Binary64 where
  | finite (negative : Bool) (mantissa : Nat) (exponent : Int)
  | infinite (negative : Bool)
deriving DecidableEq, Repr

namespace Binary64

/-- The least number that is too large for a mantissa: it has 54 bits. -/
def mantissaLimit : Nat := 9007199254740992

/-- The least mantissa of full length. -/
def fullMantissa : Nat := 4503599627370496

def minExponent : Int := -1074

def maxExponent : Int := 971

/-- The quotient of two numbers to the nearest whole, a half going to the even neighbour. -/
def roundQuotient (num den : Nat) : Nat :=
  let q := num / den
  let r := num % den
  if den < 2 * r ∨ (2 * r = den ∧ q % 2 = 1) then q + 1 else q

/-- The quotient of two numbers in units of a power of two, to the nearest whole. -/
def scaledQuotient (num den : Nat) (exponent : Int) : Nat :=
  roundQuotient (num * wholePower 2 (-exponent)) (den * wholePower 2 exponent)

/-- The exponent with which the quotient of two positive numbers has a mantissa of full length, or
the least one. -/
def exponentOf (num den : Nat) : Int :=
  let e : Int := (Nat.log2 num : Int) - Nat.log2 den
  let isBelow := num * wholePower 2 (-e) < den * wholePower 2 e
  max ((if isBelow then e - 1 else e) - 52) minExponent

/-- The number nearest to the quotient of two positive numbers. -/
def ofQuotient (negative : Bool) (num den : Nat) : Binary64 :=
  let e := exponentOf num den
  let m := scaledQuotient num den e
  let (m, e) := if m = mantissaLimit then (fullMantissa, e + 1) else (m, e)
  if maxExponent < e then infinite negative else finite negative m e

/-- The number nearest to `digits * 10 ^ exponent`. Exponents far outside the range are answered at
once. -/
def ofDecimal (negative : Bool) (digits : Nat) (exponent : Int) : Binary64 :=
  if digits = 0 then finite negative 0 minExponent
  else if 400 < exponent then infinite negative
  else if exponent + (Nat.log2 digits : Int) < -1200 then finite negative 0 minExponent
  else ofQuotient negative (digits * wholePower 10 exponent) (wholePower 10 (-exponent))

/-- The exponent behind the letter of a written number: digits with an optional sign. -/
def readExponent? : List Char → Option Int
  | '-' :: ds => (Decimal.read? ds).map fun n => -(n : Int)
  | '+' :: ds => (Decimal.read? ds).map Int.ofNat
  | ds => (Decimal.read? ds).map Int.ofNat

/-- Reads a number without its sign: digits with a point among or beside them, and an optional
exponent. -/
def readUnsigned? (negative : Bool) (cs : List Char) : Option Binary64 := do
  let whole := cs.takeWhile Decimal.isDigit
  let rest := cs.dropWhile Decimal.isDigit
  let behindPoint := if rest.head? = some '.' then rest.drop 1 else []
  let fraction := behindPoint.takeWhile Decimal.isDigit
  let rest := if rest.head? = some '.' then behindPoint.dropWhile Decimal.isDigit else rest
  let digits ← Decimal.read? (whole ++ fraction)
  let exponent ←
    match rest with
    | [] => some 0
    | c :: ds => if c = 'e' ∨ c = 'E' then readExponent? ds else none
  return ofDecimal negative digits (exponent - fraction.length)

/-- Reads a number with an optional sign. -/
def read? : List Char → Option Binary64
  | '-' :: cs => readUnsigned? true cs
  | '+' :: cs => readUnsigned? false cs
  | cs => readUnsigned? false cs

def isZero : Binary64 → Bool
  | finite _ m _ => m == 0
  | infinite _ => false

/-- The nearest whole number from 0 to `limit`; a half goes up. -/
def roundWithin (limit : Nat) : Binary64 → Nat
  | finite true _ _ => 0
  | finite false m e =>
    min limit ((2 * m * wholePower 2 e + wholePower 2 (-e)) / (2 * wholePower 2 (-e)))
  | infinite negative => if negative then 0 else limit

end Binary64

end AlertFlow
