import AlertFlow.Text.Hex
import Mathlib.Data.Bool.AllAny
import Mathlib.Data.Nat.Digits.Defs
import Mathlib.Data.List.Induction

/-!
Reading hexadecimal digits. The reader takes digits of either case, most significant first, and
gives the number that positional notation to base sixteen gives them; it takes nothing else. Of the
texts of one length that denote a number, the one in lower case is the one that is written.
-/
namespace AlertFlow.Hex

/-- A digit of either case, and its value. -/
def IsDigit (c : Char) (d : Nat) : Prop := d < 16 ∧ c.toLower = Nat.digitChar d

/-- Digits, most significant first, and the number that they denote to base sixteen. -/
def Denotes (cs : List Char) (n : Nat) : Prop :=
  ∃ ds, List.Forall₂ IsDigit cs ds ∧ Nat.ofDigits 16 ds.reverse = n

/-- The digits that numbers are written with. -/
def lowerDigits : List Char := "0123456789abcdef".toList

variable {c : Char} {cs : List Char} {d m n : Nat}

/-! ## One digit -/

theorem value?_eq_none (h : 128 ≤ c.toNat) : value? c = none := by
  have above : ∀ b : Char, b.toNat < 128 → ¬ c ≤ b := by
    intro b hb hle
    have hle : c.toNat ≤ b.toNat := hle
    omega
  rw [value?, if_neg fun hc => above '9' (by decide) hc.2,
    if_neg fun hc => above 'f' (by decide) hc.2, if_neg fun hc => above 'F' (by decide) hc.2]

theorem IsDigit.toNat_lt (h : IsDigit c d) : c.toNat < 128 := by
  obtain ⟨hd, hlower⟩ := h
  have small : ∀ d : Fin 16, (Nat.digitChar d).toNat < 128 := by decide
  have hsmall : c.toLower.toNat < 128 := hlower ▸ small ⟨d, hd⟩
  by_contra hc
  -- a letter that has a lower case is an ASCII letter
  have hsame : c.toLower = c := by
    unfold Char.toLower
    split
    · next hupper =>
      have hz : c.toNat ≤ 'Z'.toNat := hupper.2
      have : 'Z'.toNat = 90 := rfl
      omega
    · rfl
  exact hc (hsame ▸ hsmall)

theorem forall_ascii {P : Char → Prop} (h : ∀ n : Fin 128, P (Char.ofNat n))
    (hc : c.toNat < 128) : P c := by
  have := h ⟨c.toNat, hc⟩
  rwa [Char.ofNat_toNat] at this

/-- The value of a character is that of the digit it is. -/
theorem value?_eq_some : value? c = some d ↔ IsDigit c d := by
  by_cases hc : c.toNat < 128
  · have bound : ∀ d ∈ value? c, d < 16 :=
      forall_ascii (P := fun c => ∀ d ∈ value? c, d < 16) (by decide +kernel) hc
    have digits : ∀ d : Fin 16, value? c = some d.val ↔ c.toLower = Nat.digitChar d :=
      forall_ascii (P := fun c => ∀ d : Fin 16, value? c = some d.val ↔ c.toLower = Nat.digitChar d)
        (by decide +kernel) hc
    constructor
    · intro h
      exact ⟨bound d h, (digits ⟨d, bound d h⟩).1 h⟩
    · intro h
      exact (digits ⟨d, h.1⟩).2 h.2
  · rw [value?_eq_none (Nat.not_lt.1 hc)]
    exact iff_of_false (Option.some_ne_none d).symm fun h => hc h.toNat_lt

theorem digit_mem_lowerDigits (n : Nat) : digit (n % 16) ∈ lowerDigits := by
  have all : ∀ m : Fin 16, digit m ∈ lowerDigits := by decide
  exact all ⟨n % 16, Nat.mod_lt _ (by decide)⟩

theorem digit_of_value? (hc : c ∈ lowerDigits) (h : value? c = some d) : digit d = c := by
  have all : ∀ c ∈ lowerDigits, value? c = none ∨ (value? c).map digit = some c :=
    List.all_iff_forall_prop.1 (by decide)
  simpa [h] using all c hc

/-! ## Numbers -/

/-- A number that was read before counts as one more digit in front. -/
theorem readFrom_eq_some :
    readFrom m cs = some n ↔
      ∃ ds, List.Forall₂ IsDigit cs ds ∧ Nat.ofDigits 16 (ds.reverse ++ [m]) = n := by
  induction cs generalizing m with
  | nil =>
    rw [readFrom, Option.some.injEq]
    constructor
    · intro h
      exact ⟨[], .nil, by simpa using h⟩
    · rintro ⟨ds, hds, rfl⟩
      cases hds
      simp
  | cons c cs ih =>
    have step (d : Nat) (ds : List Nat) : Nat.ofDigits 16 ((d :: ds).reverse ++ [m]) =
        Nat.ofDigits 16 (ds.reverse ++ [16 * m + d]) := by
      simp [Nat.ofDigits_append, Nat.ofDigits_cons, Nat.add_comm]
    constructor
    · intro h
      rw [readFrom] at h
      cases hc : value? c with
      | none =>
        rw [hc] at h
        cases h
      | some d =>
        rw [hc] at h
        obtain ⟨ds, hds, hn⟩ := ih.1 h
        exact ⟨d :: ds, .cons (value?_eq_some.1 hc) hds, (step d ds).trans hn⟩
    · rintro ⟨_, ⟨⟩, hn⟩
      next d ds hc hds =>
      rw [readFrom, value?_eq_some.2 hc]
      exact ih.2 ⟨ds, hds, (step d ds).symm.trans hn⟩

/-- **Reading is exact**: the texts of one digit or more are taken for the number they denote. -/
theorem read?_eq_some : read? cs = some n ↔ cs ≠ [] ∧ Denotes cs n := by
  cases cs with
  | nil => simp [read?]
  | cons c cs =>
    show readFrom 0 (c :: cs) = some n ↔ _
    rw [readFrom_eq_some]
    simp [Denotes, Nat.ofDigits_append]

theorem mem_lowerDigits_of_mem_write {w : Nat} (h : c ∈ write w n) : c ∈ lowerDigits := by
  induction w generalizing n with
  | zero => cases h
  | succ w ih =>
    rcases List.mem_append.1 h with h | h
    · exact ih h
    · rw [List.mem_singleton.1 h]
      exact digit_mem_lowerDigits n

/-- Lower-case digits are what is written, in their length, for the number they are read as. -/
theorem write_of_readFrom (hlower : ∀ c ∈ cs, c ∈ lowerDigits) (h : readFrom 0 cs = some n) :
    write cs.length n = cs := by
  induction cs using List.reverseRecOn generalizing n with
  | nil => rfl
  | append_singleton cs c ih =>
    rw [readFrom_append] at h
    obtain ⟨m, hm, hlast⟩ := Option.bind_eq_some_iff.1 h
    rw [readFrom] at hlast
    cases hc : value? c with
    | none =>
      rw [hc] at hlast
      cases hlast
    | some d =>
      rw [hc] at hlast
      obtain rfl : 16 * m + d = n := Option.some.inj hlast
      have hd : d < 16 := (value?_eq_some.1 hc).1
      have hfront := ih (fun c hmem => hlower c (List.mem_append_left _ hmem)) hm
      have hdigit := digit_of_value? (hlower c (by simp)) hc
      rw [List.length_append, List.length_singleton, write,
        show (16 * m + d) / 16 = m by omega, show (16 * m + d) % 16 = d by omega, hfront, hdigit]

end AlertFlow.Hex
