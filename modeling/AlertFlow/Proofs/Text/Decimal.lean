import AlertFlow.Text.Decimal
import Mathlib.Algebra.Ring.Nat

/-!
Reading decimal digits. A run of digits denotes the number that core's `Nat.ofDigitChars` gives it,
whatever was read before it; so the digits that are written for a number, with zeros in front of
them or not, are read as that number.
-/
namespace AlertFlow.Decimal

/-- A text that consists of digits. -/
def Digits (cs : List Char) : Prop := ∀ c ∈ cs, isDigit c = true

/-- A text that does not go on with a digit. -/
def EndsDigits (cs : List Char) : Prop := ∀ c ∈ cs.head?, isDigit c = false

/-- The number that digits denote. -/
def denoted (cs : List Char) : Nat := Nat.ofDigitChars 10 cs 0

theorem value?_of_isDigit {c : Char} (h : isDigit c = true) :
    value? c = some (c.toNat - '0'.toNat) := by
  simp only [isDigit, Bool.and_eq_true, decide_eq_true_eq] at h
  rw [value?, if_pos h]

theorem value?_eq_none {c : Char} (h : isDigit c = false) : value? c = none := by
  rw [value?, if_neg]
  simpa [isDigit] using h

theorem value?_le {c : Char} {d : Nat} (h : value? c = some d) : d ≤ 9 := by
  unfold value? at h
  split at h
  · next hc =>
    cases h
    have hle : c.toNat ≤ 57 := hc.2
    have hzero : '0'.toNat = 48 := rfl
    omega
  · cases h

theorem readFrom_of_digits {cs : List Char} (h : Digits cs) (n : Nat) :
    readFrom n cs = some (Nat.ofDigitChars 10 cs n) := by
  induction cs generalizing n with
  | nil => rfl
  | cons c cs ih =>
    obtain ⟨hc, hcs⟩ := List.forall_mem_cons.1 h
    rw [readFrom, value?_of_isDigit hc, Nat.ofDigitChars_cons]
    exact ih hcs _

theorem read?_of_digits {cs : List Char} (h : Digits cs) (hne : cs ≠ []) :
    read? cs = some (denoted cs) := by
  obtain ⟨c, cs, rfl⟩ := List.exists_cons_of_ne_nil hne
  exact readFrom_of_digits h 0

theorem digits_of_readFrom {cs : List Char} {m n : Nat} (h : readFrom m cs = some n) :
    Digits cs := by
  induction cs generalizing m with
  | nil => simp [Digits]
  | cons c cs ih =>
    rw [readFrom] at h
    cases hc : isDigit c with
    | false =>
      rw [value?_eq_none hc] at h
      cases h
    | true =>
      rw [value?_of_isDigit hc] at h
      exact List.forall_mem_cons.2 ⟨hc, ih h⟩

/-- The texts of one digit or more are taken for the number they denote, and no others are. -/
theorem read?_eq_some {cs : List Char} {n : Nat} :
    read? cs = some n ↔ cs ≠ [] ∧ Digits cs ∧ denoted cs = n := by
  constructor
  · intro h
    have hne : cs ≠ [] := by
      rintro rfl
      cases h
    have hdigits : Digits cs := by
      obtain ⟨c, cs, rfl⟩ := List.exists_cons_of_ne_nil hne
      exact digits_of_readFrom h
    rw [read?_of_digits hdigits hne] at h
    exact ⟨hne, hdigits, Option.some.inj h⟩
  · rintro ⟨hne, hdigits, rfl⟩
    exact read?_of_digits hdigits hne

/-! ## Numbers of 64 bits -/

/-- A text that spells a number: a plus sign or none, and at least one digit, the number of the
digits being one of 64 bits. -/
def Spells (text : String) (n : Nat) : Prop :=
  ∃ digits, digits ≠ [] ∧ (text.toList = digits ∨ text.toList = '+' :: digits) ∧
    Digits digits ∧ denoted digits = n ∧ n < 2 ^ 64

/-- Behind a plus sign, which is no digit, the text is read as without it. -/
theorem readSigned?_eq_some {cs : List Char} {n : Nat} :
    readSigned? cs = some n ↔ ∃ digits, digits ≠ [] ∧ (cs = digits ∨ cs = '+' :: digits) ∧
      Digits digits ∧ denoted digits = n := by
  constructor
  · intro h
    unfold readSigned? at h
    split at h
    · next digits =>
      obtain ⟨hne, hdigits, hn⟩ := read?_eq_some.1 h
      exact ⟨digits, hne, .inr rfl, hdigits, hn⟩
    · obtain ⟨hne, hdigits, hn⟩ := read?_eq_some.1 h
      exact ⟨cs, hne, .inl rfl, hdigits, hn⟩
  · rintro ⟨digits, hne, rfl | rfl, hdigits, hn⟩
    · unfold readSigned?
      split
      · exact absurd (hdigits '+' List.mem_cons_self) (by decide)
      · exact read?_eq_some.2 ⟨hne, hdigits, hn⟩
    · exact read?_eq_some.2 ⟨hne, hdigits, hn⟩

theorem readWord?_eq_some {text : String} {n : Nat} : readWord? text = some n ↔ Spells text n := by
  rw [readWord?, Option.filter_eq_some_iff, readSigned?_eq_some, decide_eq_true_iff]
  constructor
  · rintro ⟨⟨digits, hne, htext, hdigits, hn⟩, hlt⟩
    exact ⟨digits, hne, htext, hdigits, hn, hlt⟩
  · rintro ⟨digits, hne, htext, hdigits, hn, hlt⟩
    exact ⟨⟨digits, hne, htext, hdigits, hn⟩, hlt⟩

/-! ## Written numbers -/

theorem digits_write (n : Nat) : Digits (write n) :=
  fun c hc => Nat.isDigit_of_mem_toDigits (by decide) (by decide) hc

theorem write_ne_nil (n : Nat) : write n ≠ [] := Nat.toDigits_ne_nil

@[simp] theorem denoted_write (n : Nat) : denoted (write n) = n := Nat.ofDigitChars_ten_toDigits

theorem read?_write (n : Nat) : read? (write n) = some n := by
  rw [read?_of_digits (digits_write n) (write_ne_nil n), denoted_write]

/-- A written number begins with a zero only if it is the zero. -/
theorem write_eq_zero_cons {n : Nat} {cs : List Char} (h : write n = '0' :: cs) : cs = [] := by
  induction n using Nat.strongRecOn generalizing cs with
  | _ n ih =>
    rw [write, Nat.toDigits_eq_if (by decide)] at h
    split at h
    · exact (List.tail_eq_of_cons_eq h).symm
    · next hbig =>
      -- more digits follow only a number that is not zero
      obtain ⟨d, ds, hds⟩ := List.exists_cons_of_ne_nil (write_ne_nil (n / 10))
      rw [show Nat.toDigits 10 (n / 10) = d :: ds from hds, List.cons_append] at h
      obtain rfl := List.head_eq_of_cons_eq h
      have hnil := ih (n / 10) (by omega) hds
      subst hnil
      have hzero : denoted (write (n / 10)) = 0 := by rw [hds]; rfl
      rw [denoted_write] at hzero
      omega

theorem digits_writePadded (width n : Nat) : Digits (writePadded width n) := by
  intro c hc
  rcases List.mem_append.1 hc with hc | hc
  · rw [List.eq_of_mem_replicate hc]
    rfl
  · exact digits_write n c hc

@[simp] theorem denoted_writePadded (width n : Nat) : denoted (writePadded width n) = n := by
  rw [denoted, writePadded, Nat.ofDigitChars_append, Nat.ofDigitChars_replicate_zero,
    Nat.mul_zero]
  exact denoted_write n

theorem length_writePadded {width n : Nat} (hw : 0 < width) (h : n < 10 ^ width) :
    (writePadded width n).length = width := by
  have hlen : (write n).length ≤ width := (Nat.length_toDigits_le_iff (by decide) hw).2 h
  rw [writePadded, List.length_append, List.length_replicate]
  omega

theorem writePadded_ne_nil (width n : Nat) : writePadded width n ≠ [] := by
  rw [writePadded]
  exact List.append_ne_nil_of_right_ne_nil _ (write_ne_nil n)

/-! ## Digits in front of a text -/

theorem takeWhile_digits {cs rest : List Char} (h : Digits cs) (hrest : EndsDigits rest) :
    (cs ++ rest).takeWhile isDigit = cs ∧ (cs ++ rest).dropWhile isDigit = rest := by
  rw [List.takeWhile_append_of_pos h, List.dropWhile_append_of_pos h]
  cases rest with
  | nil => simp
  | cons c rest =>
    have hc : isDigit c = false := hrest c rfl
    simp [hc]

end AlertFlow.Decimal
