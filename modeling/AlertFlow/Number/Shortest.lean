import AlertFlow.Number.Binary64

/-!
The shortest decimal text of a binary floating-point number. Of the decimals that read back as the
number those with the fewest digits are taken, and of these the nearest; it is written out in
positions, however many zeros that takes, and without a fraction where there is none.
-/
namespace AlertFlow.Binary64

/-- The decimal number `digits * 10 ^ exponent`. -/
structure DecimalForm where
  digits : Nat
  exponent : Int
deriving DecidableEq, Repr

/-- Compares `a * 10 ^ i` with `n * 2 ^ j`. -/
def compareScaled (a : Nat) (i : Int) (n : Nat) (j : Int) : Ordering :=
  compare (a * wholePower 10 i * wholePower 2 (-j)) (n * wholePower 2 j * wholePower 10 (-i))

/-- Whether a decimal lies among the reals that are rounded to `m * 2 ^ e`. They reach half-way to
either neighbour, the one below being half as far at the start of a new exponent, and include the
ends if `m` is even. -/
def readsBack (m : Nat) (e : Int) (d : DecimalForm) : Bool :=
  let isStart := m = fullMantissa ∧ minExponent < e
  let low := compareScaled d.digits d.exponent (if isStart then 4 * m - 1 else 4 * m - 2) (e - 2)
  let high := compareScaled d.digits d.exponent (4 * m + 2) (e - 2)
  let isEven := m % 2 == 0
  (low == .gt || (isEven && low == .eq)) && (high == .lt || (isEven && high == .eq))

/-- The least power of ten above `m * 2 ^ e`: how many digits its whole part has, or, for fractions,
zero less the zeros behind the point. -/
def scale (m : Nat) (e : Int) : Int :=
  let n := m * wholePower 2 e
  let d := wholePower 2 (-e)
  if d ≤ n then (Nat.toDigits 10 (n / d)).length
  else
    let zeros := (Nat.toDigits 10 (d / n)).length
    if d ≤ n * Nat.pow 10 (zeros - 1) then 2 - (zeros : Int) else 1 - (zeros : Int)

/-- The decimals of a step `10 ^ i` next to `m * 2 ^ e`, the nearer one first. -/
def neighbours (m : Nat) (e i : Int) : List DecimalForm :=
  let num := m * wholePower 2 e * wholePower 10 (-i)
  let den := wholePower 2 (-e) * wholePower 10 i
  let below := num / den
  if 2 * (num % den) < den then [⟨below, i⟩, ⟨below + 1, i⟩] else [⟨below + 1, i⟩, ⟨below, i⟩]

/-- The shortest decimal that reads back as `m * 2 ^ e`. Seventeen digits always suffice. -/
def shortest (m : Nat) (e : Int) : DecimalForm :=
  let k := scale m e
  let found := (List.range 18).findSome? fun (n : Nat) =>
    (neighbours m e (k - n)).find? (readsBack m e)
  found.getD ⟨m * wholePower 2 e * wholePower 5 (-e), min e 0⟩

/-- A decimal written out in positions. -/
def DecimalForm.write (d : DecimalForm) : List Char :=
  let digits := Decimal.write d.digits
  if 0 ≤ d.exponent then digits ++ List.replicate d.exponent.toNat '0'
  else
    let places := (-d.exponent).toNat
    let padded := List.replicate (places + 1 - digits.length) '0' ++ digits
    padded.take (padded.length - places) ++ '.' :: padded.drop (padded.length - places)

/-- The decimal without zeros at its end that a smaller exponent could leave out. -/
def DecimalForm.trim : (fuel : Nat) → DecimalForm → DecimalForm
  | 0, d => d
  | fuel + 1, d =>
    if d.exponent < 0 ∧ d.digits % 10 = 0 then trim fuel ⟨d.digits / 10, d.exponent + 1⟩ else d

/-- The shortest text of a number that reads back as the number. -/
def write : Binary64 → String
  | infinite negative => if negative then "-inf" else "inf"
  | finite negative m e =>
    let digits :=
      if m = 0 then ['0'] else DecimalForm.write ((shortest m e).trim 17)
    String.ofList (if negative then '-' :: digits else digits)

end AlertFlow.Binary64
