/-!
The sizes of machine words, and powers by explicit exponents.
-/
namespace AlertFlow

/-- How many unsigned 64-bit numbers there are. -/
def wordLimit : Nat := 18446744073709551616

/-- How many of the signed 64-bit numbers are negative. -/
def signedLimit : Nat := 9223372036854775808

/-- The power of a base, or one if the exponent is negative. A quotient with a power of either sign
is written with this above the line and with the opposite exponent below it. -/
def wholePower (base : Nat) (exponent : Int) : Nat := Nat.pow base exponent.toNat

end AlertFlow
