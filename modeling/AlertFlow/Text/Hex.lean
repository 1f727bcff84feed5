/-!
Hexadecimal digits. Digits are written in lower case and read in either case; a number is written
with a fixed count of digits, most significant first, and read from any count of them. Main
statement: reading what was written gives the number back, whatever stands in front of it as zeros.
-/
namespace AlertFlow.Hex

/-- The lower-case digit of a value below sixteen. -/
def digit (n : Nat) : Char := Nat.digitChar n

def value? (c : Char) : Option Nat :=
  if '0' ≤ c ∧ c ≤ '9' then some (c.toNat - '0'.toNat)
  else if 'a' ≤ c ∧ c ≤ 'f' then some (c.toNat - 'a'.toNat + 10)
  else if 'A' ≤ c ∧ c ≤ 'F' then some (c.toNat - 'A'.toNat + 10)
  else none

/-- The last `width` digits of a number, most significant first. -/
def write : (width n : Nat) → List Char
  | 0, _ => []
  | w + 1, n => write w (n / 16) ++ [digit (n % 16)]

/-- Appends the digits to a number already read; `none` at the first character that is no digit. -/
def readFrom (n : Nat) : List Char → Option Nat
  | [] => some n
  | c :: cs =>
    match value? c with
    | some d => readFrom (16 * n + d) cs
    | none => none

/-- The number that one or more digits denote. -/
def read? : List Char → Option Nat
  | [] => none
  | cs => readFrom 0 cs

theorem value?_digit {n : Nat} (h : n < 16) : value? (digit n) = some n := by
  have all : ∀ m : Fin 16, value? (digit m) = some m.val := by decide
  exact all ⟨n, h⟩

theorem readFrom_append (n : Nat) (a b : List Char) :
    readFrom n (a ++ b) = (readFrom n a).bind (readFrom · b) := by
  induction a generalizing n with
  | nil => rfl
  | cons c cs ih =>
    simp only [List.cons_append, readFrom]
    cases value? c with
    | none => rfl
    | some d => exact ih _

theorem length_write (w n : Nat) : (write w n).length = w := by
  induction w generalizing n with
  | zero => rfl
  | succ w ih => simp [write, ih]

theorem readFrom_write (w n m : Nat) (h : n < Nat.pow 16 w) :
    readFrom m (write w n) = some (m * Nat.pow 16 w + n) := by
  induction w generalizing n with
  | zero =>
    have one : Nat.pow 16 0 = 1 := rfl
    rw [one] at h ⊢
    simp only [write, readFrom, Option.some.injEq]
    omega
  | succ w ih =>
    have step : Nat.pow 16 (w + 1) = Nat.pow 16 w * 16 := rfl
    rw [step] at h ⊢
    have hq : n / 16 < Nat.pow 16 w := (Nat.div_lt_iff_lt_mul (by decide)).2 h
    have hd : value? (digit (n % 16)) = some (n % 16) := value?_digit (Nat.mod_lt _ (by decide))
    have split : m * (Nat.pow 16 w * 16) = 16 * (m * Nat.pow 16 w) := by
      rw [← Nat.mul_assoc, Nat.mul_comm]
    have parts := Nat.div_add_mod n 16
    simp only [write, readFrom_append, ih _ hq, Option.bind_some, readFrom, hd, Option.some.injEq]
    omega

end AlertFlow.Hex
