import AlertFlow.Fingerprint
import AlertFlow.Proofs.LabelSet
import Mathlib.Algebra.Ring.Nat

/-!
What the bytes of a value tell about it. A text ends at the first byte 255, since UTF-8 has no such
byte; so the labels of a set can be told from their bytes one after the other, although their number
is not written. Numbers below the limit of their width can be told from their bytes.
-/
namespace AlertFlow

/-! ## Texts -/

/-- Listing the bytes of an array from a position on puts them behind those listed before. -/
theorem toListLoop_eq (bytes : ByteArray) (i : Nat) (listed : List UInt8) :
    ByteArray.toList.loop bytes i listed = listed.reverse ++ bytes.data.toList.drop i := by
  fun_induction ByteArray.toList.loop bytes i listed with
  | case1 i listed hlt ih =>
    have hi : i < bytes.data.toList.length := by simpa using hlt
    have hbyte : bytes.get! i = bytes.data.toList[i] := by simp [ByteArray.get!, hlt]
    rw [ih, List.drop_eq_getElem_cons hi, List.reverse_cons, List.append_assoc, hbyte]
    rfl
  | case2 i listed hend =>
    have hlength : bytes.data.toList.length ≤ i := by simpa using hend
    rw [List.drop_eq_nil_of_le hlength, List.append_nil]

theorem toList_bytes (bytes : ByteArray) : bytes.toList = bytes.data.toList :=
  toListLoop_eq bytes 0 []

theorem toList_toUTF8 (s : String) : s.toUTF8.toList = s.toList.flatMap String.utf8EncodeChar := by
  have hbytes : s.toUTF8 = s.toList.utf8Encode := by
    rw [← String.toByteArray_ofList, String.ofList_toList]
    rfl
  rw [toList_bytes, hbytes, List.utf8Encode, List.toList_data_toByteArray]

theorem toUTF8_inj {s t : String} (h : s.toUTF8.toList = t.toUTF8.toList) : s = t := by
  rw [toList_bytes, toList_bytes] at h
  exact String.toByteArray_inj.1 (ByteArray.ext (Array.toList_inj.1 h))

/-- No character has the byte 255 in its code. -/
theorem closing_notMem_utf8EncodeChar (c : Char) : 0xff ∉ String.utf8EncodeChar c := by
  have lower : ∀ n, n < 255 → UInt8.ofNat n ≠ 0xff := by
    intro n hn heq
    have := congrArg UInt8.toNat heq
    rw [UInt8.toNat_ofNat', Nat.mod_eq_of_lt (by omega)] at this
    have hmax : (0xff : UInt8).toNat = 255 := rfl
    omega
  intro hmem
  unfold String.utf8EncodeChar at hmem
  dsimp only at hmem
  split at hmem
  · simp only [List.mem_cons, List.not_mem_nil, or_false] at hmem
    exact lower _ (by omega) hmem.symm
  split at hmem
  · simp only [List.mem_cons, List.not_mem_nil, or_false] at hmem
    rcases hmem with hmem | hmem <;> exact lower _ (by omega) hmem.symm
  split at hmem
  · simp only [List.mem_cons, List.not_mem_nil, or_false] at hmem
    rcases hmem with hmem | hmem | hmem <;> exact lower _ (by omega) hmem.symm
  · simp only [List.mem_cons, List.not_mem_nil, or_false] at hmem
    rcases hmem with hmem | hmem | hmem | hmem <;> exact lower _ (by omega) hmem.symm

theorem closing_notMem_toUTF8 (s : String) : 0xff ∉ s.toUTF8.toList := by
  rw [toList_toUTF8]
  intro hmem
  obtain ⟨c, -, hc⟩ := List.mem_flatMap.1 hmem
  exact closing_notMem_utf8EncodeChar c hc

/-- What stands in front of the first closing byte is determined, and what stands behind it. -/
theorem append_closing_inj {x y a b : List UInt8} (hx : 0xff ∉ x) (hy : 0xff ∉ y)
    (h : x ++ 0xff :: a = y ++ 0xff :: b) : x = y ∧ a = b := by
  induction x generalizing y with
  | nil =>
    cases y with
    | nil => exact ⟨rfl, List.tail_eq_of_cons_eq h⟩
    | cons c y => exact absurd (List.head_eq_of_cons_eq h ▸ List.mem_cons_self) hy
  | cons c x ih =>
    cases y with
    | nil => exact absurd (List.head_eq_of_cons_eq h ▸ List.mem_cons_self) hx
    | cons d y =>
      obtain ⟨hcd, hrest⟩ := List.cons.inj h
      obtain ⟨hxy, hab⟩ := ih (fun hm => hx (List.mem_cons_of_mem _ hm))
        (fun hm => hy (List.mem_cons_of_mem _ hm)) hrest
      exact ⟨by rw [hcd, hxy], hab⟩

/-- A closed text in front of any bytes is determined by all of them. -/
theorem closedText_append_inj {s t : String} {a b : List UInt8}
    (h : closedText s ++ a = closedText t ++ b) : s = t ∧ a = b := by
  simp only [closedText, List.append_assoc, List.singleton_append] at h
  obtain ⟨htext, hrest⟩ :=
    append_closing_inj (closing_notMem_toUTF8 s) (closing_notMem_toUTF8 t) h
  exact ⟨toUTF8_inj htext, hrest⟩

theorem closedText_append_ne_nil (s : String) (a : List UInt8) : closedText s ++ a ≠ [] := by
  simp [closedText]

/-! ## Label sets -/

/-- Labels are determined by their bytes, one label after the other. -/
theorem flatMap_closedTexts_inj {l l' : List (String × String)}
    (h : (l.flatMap fun p => closedText p.1 ++ closedText p.2) =
      l'.flatMap fun p => closedText p.1 ++ closedText p.2) : l = l' := by
  induction l generalizing l' with
  | nil =>
    cases l' with
    | nil => rfl
    | cons q l' =>
      rw [List.flatMap_nil, List.flatMap_cons, List.append_assoc] at h
      exact absurd h.symm (closedText_append_ne_nil _ _)
  | cons p l ih =>
    cases l' with
    | nil =>
      rw [List.flatMap_nil, List.flatMap_cons, List.append_assoc] at h
      exact absurd h (closedText_append_ne_nil _ _)
    | cons q l' =>
      rw [List.flatMap_cons, List.flatMap_cons, List.append_assoc, List.append_assoc] at h
      obtain ⟨hname, h⟩ := closedText_append_inj h
      obtain ⟨hvalue, h⟩ := closedText_append_inj h
      rw [Prod.ext hname hvalue, ih h]

/-- The bytes of a label set determine it. -/
theorem LabelSet.bytes_inj {s t : LabelSet} : s.bytes = t.bytes ↔ s = t := by
  constructor
  · intro h
    exact eq_of_pairs (flatMap_closedTexts_inj h)
  · intro h
    rw [h]

/-! ## Numbers -/

theorem length_littleEndian (width n : Nat) : (littleEndian width n).length = width := by
  induction width generalizing n with
  | zero => rfl
  | succ width ih => rw [littleEndian, List.length_cons, ih]

/-- A number below the limit of its width is determined by its bytes. -/
theorem littleEndian_inj {width m n : Nat} (h : littleEndian width m = littleEndian width n)
    (hm : m < 256 ^ width) (hn : n < 256 ^ width) : m = n := by
  induction width generalizing m n with
  | zero =>
    rw [Nat.pow_zero] at hm hn
    omega
  | succ width ih =>
    rw [Nat.pow_succ] at hm hn
    obtain ⟨hlow, hhigh⟩ := List.cons.inj h
    have hquotient : m / 256 = n / 256 := ih hhigh (by omega) (by omega)
    have hremainder := congrArg UInt8.toNat hlow
    rw [UInt8.toNat_ofNat', UInt8.toNat_ofNat'] at hremainder
    omega

theorem bigEndian_inj {width m n : Nat} (h : bigEndian width m = bigEndian width n)
    (hm : m < 256 ^ width) (hn : n < 256 ^ width) : m = n :=
  littleEndian_inj (List.reverse_injective h) hm hn

end AlertFlow
