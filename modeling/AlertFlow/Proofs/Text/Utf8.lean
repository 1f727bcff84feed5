import AlertFlow.Proofs.Hash.Layout

/-!
UTF-8 keeps the order of texts. The first byte of a character's code grows with the character and
tells how many bytes follow; these are the last digits of the character to base 64, most significant
first. So the codes of two characters compare as the characters do, whatever comes behind them, and
texts compare by their bytes as they do by their characters.
-/
namespace AlertFlow

/-- Texts compared by their bytes; a text that another one goes on from comes first. -/
def BytesLT (s t : String) : Prop := s.toUTF8.toList < t.toUTF8.toList

namespace Utf8

variable {m n k : Nat}

/-- The first byte of the code of a number. -/
def firstByte (n : Nat) : Nat :=
  if n ≤ 127 then n
  else if n ≤ 2047 then 192 + n / 64
  else if n ≤ 65535 then 224 + n / 4096
  else 240 + n / 262144

/-- How many bytes follow the first one. -/
def followers (n : Nat) : Nat :=
  if n ≤ 127 then 0 else if n ≤ 2047 then 1 else if n ≤ 65535 then 2 else 3

/-- The last digits of a number to base 64 as bytes, most significant first. -/
def lastDigits : (count n : Nat) → List UInt8
  | 0, _ => []
  | k + 1, n => UInt8.ofNat (n / 64 ^ k % 64 + 128) :: lastDigits k n

/-- The four lengths of codes. -/
theorem code_cases (n : Nat) :
    n ≤ 127 ∧ firstByte n = n ∧ followers n = 0 ∨
      127 < n ∧ n ≤ 2047 ∧ firstByte n = 192 + n / 64 ∧ followers n = 1 ∨
      2047 < n ∧ n ≤ 65535 ∧ firstByte n = 224 + n / 4096 ∧ followers n = 2 ∨
      65535 < n ∧ firstByte n = 240 + n / 262144 ∧ followers n = 3 := by
  unfold firstByte followers
  split
  · next h => exact .inl ⟨h, rfl, rfl⟩
  split
  · next h h' => exact .inr (.inl ⟨Nat.not_le.1 h, h', rfl, rfl⟩)
  split
  · next h h' => exact .inr (.inr (.inl ⟨Nat.not_le.1 h, h', rfl, rfl⟩))
  · next h => exact .inr (.inr (.inr ⟨Nat.not_le.1 h, rfl, rfl⟩))

theorem toNat_lt (c : Char) : c.val.toNat < 0x110000 := by
  have hc := c.valid
  simp only [UInt32.isValidChar, Nat.isValidChar] at hc
  omega

theorem utf8EncodeChar_eq (c : Char) :
    String.utf8EncodeChar c =
      UInt8.ofNat (firstByte c.val.toNat) :: lastDigits (followers c.val.toNat) c.val.toNat := by
  have hmax := toNat_lt c
  have hcases := code_cases c.val.toNat
  unfold String.utf8EncodeChar
  generalize c.val.toNat = n at hmax hcases
  dsimp only
  rcases hcases with ⟨h, hfirst, hcount⟩ | ⟨h, h', hfirst, hcount⟩ | ⟨h, h', hfirst, hcount⟩ |
    ⟨h, hfirst, hcount⟩ <;> rw [hfirst, hcount]
  · rw [if_pos h]
    rfl
  · rw [if_neg (by omega), if_pos h', show n / 64 % 32 + 192 = 192 + n / 64 by omega]
    simp [lastDigits]
  · rw [if_neg (by omega), if_neg (by omega), if_pos h',
      show n / 4096 % 16 + 224 = 224 + n / 4096 by omega]
    simp [lastDigits]
  · rw [if_neg (by omega), if_neg (by omega), if_neg (by omega),
      show n / 262144 % 8 + 240 = 240 + n / 262144 by omega]
    simp [lastDigits]

/-! ## The order of codes -/

theorem firstByte_lt (h : n < 0x110000) : firstByte n < 256 := by
  have := code_cases n
  omega

theorem firstByte_mono (h : m ≤ n) : firstByte m ≤ firstByte n := by
  have := code_cases m
  have := code_cases n
  omega

/-- A first byte tells the count of those that follow, and all digits in front of theirs. -/
theorem of_firstByte_eq (h : firstByte m = firstByte n) :
    followers m = followers n ∧ m / 64 ^ followers n = n / 64 ^ followers n := by
  have hcases := code_cases m
  rcases code_cases n with ⟨_, _, hcount⟩ | ⟨_, _, _, hcount⟩ | ⟨_, _, _, hcount⟩ |
    ⟨_, _, hcount⟩ <;> rw [hcount] <;> simp only [Nat.reducePow] <;> omega

theorem byte_cons_lt {x y : List UInt8} (hn : n < 256) (h : m ≤ n) (hrest : m = n → x < y) :
    UInt8.ofNat m :: x < UInt8.ofNat n :: y := by
  rw [List.cons_lt_cons_iff]
  rcases Nat.lt_or_eq_of_le h with hlt | rfl
  · refine .inl (UInt8.lt_iff_toNat_lt.2 ?_)
    rw [UInt8.toNat_ofNat_of_lt' hn, UInt8.toNat_ofNat_of_lt' (Nat.lt_trans hlt hn)]
    exact hlt
  · exact .inr ⟨rfl, hrest rfl⟩

/-- Numbers that have the digits in front in common compare by their last digits. -/
theorem lastDigits_append_lt (h : m < n) (hfront : m / 64 ^ k = n / 64 ^ k) (x y : List UInt8) :
    lastDigits k m ++ x < lastDigits k n ++ y := by
  induction k with
  | zero =>
    simp only [Nat.pow_zero, Nat.div_one] at hfront
    exact absurd hfront (Nat.ne_of_lt h)
  | succ k ih =>
    rw [Nat.pow_succ, ← Nat.div_div_eq_div_mul, ← Nat.div_div_eq_div_mul] at hfront
    have hle : m / 64 ^ k ≤ n / 64 ^ k := Nat.div_le_div_right (Nat.le_of_lt h)
    refine byte_cons_lt (by omega) (by omega) fun heq => ih ?_
    omega

/-- The codes of two characters compare as the characters do, whatever comes behind them. -/
theorem utf8EncodeChar_append_lt {c d : Char} (h : c < d) (x y : List UInt8) :
    String.utf8EncodeChar c ++ x < String.utf8EncodeChar d ++ y := by
  have h : c.val.toNat < d.val.toNat := h
  rw [utf8EncodeChar_eq, utf8EncodeChar_eq]
  refine byte_cons_lt (firstByte_lt (toNat_lt d)) (firstByte_mono (Nat.le_of_lt h)) fun heq => ?_
  obtain ⟨hcount, hfront⟩ := of_firstByte_eq heq
  rw [hcount]
  exact lastDigits_append_lt h hfront x y

theorem flatMap_utf8EncodeChar_lt {s t : List Char} (h : s < t) :
    s.flatMap String.utf8EncodeChar < t.flatMap String.utf8EncodeChar := by
  induction s generalizing t with
  | nil =>
    cases t with
    | nil => exact absurd h (List.lt_irrefl [])
    | cons d t =>
      rw [List.flatMap_nil, List.flatMap_cons, utf8EncodeChar_eq]
      exact List.nil_lt_cons _ _
  | cons c s ih =>
    cases t with
    | nil => exact absurd h (List.not_lt_nil _)
    | cons d t =>
      rw [List.flatMap_cons, List.flatMap_cons]
      rcases List.cons_lt_cons_iff.1 h with hlt | ⟨rfl, hrest⟩
      · exact utf8EncodeChar_append_lt hlt _ _
      · exact List.append_left_lt (ih hrest)

end Utf8

/-- **Texts compare by their bytes** as they do by their characters. -/
theorem bytesLT_iff {s t : String} : BytesLT s t ↔ s < t := by
  have forward {s t : String} (h : s < t) : BytesLT s t := by
    rw [BytesLT, toList_toUTF8, toList_toUTF8]
    exact Utf8.flatMap_utf8EncodeChar_lt (String.lt_iff.1 h)
  refine ⟨fun h => ?_, forward⟩
  by_contra hnot
  by_cases heq : s = t
  · subst heq
    exact List.lt_irrefl _ h
  · have hgt : t < s := Std.lt_of_le_of_ne (Std.not_lt.1 hnot) (Ne.symm heq)
    exact List.lt_asymm h (forward hgt)

-- by their 16-bit units they would compare the other way
example : BytesLT "\uffff" "😀" := bytesLT_iff.2 (by decide)

end AlertFlow
