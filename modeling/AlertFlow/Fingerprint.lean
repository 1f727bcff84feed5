import AlertFlow.Error
import AlertFlow.Hash.Layout
import AlertFlow.Hash.Xxh3
import AlertFlow.Json.Decode
import AlertFlow.Text.Hex

/-!
Fingerprints: 64-bit hashes that stand for label sets, routes and groups. The written form is
sixteen hexadecimal digits; the reader also takes a plus sign, either case and any count of leading
zeros, and a text that it refuses is named in the error.
-/
namespace AlertFlow

/-- A 64-bit hash that stands for the value it was taken of. -/
structure Fingerprint where
  bits : UInt64
deriving DecidableEq

/-- The bytes under which a label set is fingerprinted: name and value of each label, each closed.
-/
def LabelSet.bytes (s : LabelSet) : List UInt8 :=
  s.toList.flatMap fun p => closedText p.1 ++ closedText p.2

/-- The fingerprint of a label set, which is that of every alert with these labels. -/
def LabelSet.fingerprint (s : LabelSet) : Fingerprint := ⟨Xxh3.hash s.bytes⟩

namespace Fingerprint

instance : Inhabited Fingerprint := ⟨⟨0⟩⟩

/-- The fingerprint of any value that has a layout. -/
def of {α : Type} [HashLayout α] (a : α) : Fingerprint := ⟨Xxh3.hash (HashLayout.layout a)⟩

/-- The fingerprint of a pair of fingerprints, in this order. -/
def combine (a b : Fingerprint) : Fingerprint :=
  ⟨Xxh3.hash (littleEndian 8 a.bits.toNat ++ littleEndian 8 b.bits.toNat)⟩

/-- Sixteen lower-case hexadecimal digits. -/
def hex (fp : Fingerprint) : String := String.ofList (Hex.write 16 fp.bits.toNat)

/-- A text without its leading plus sign. -/
def dropPlus : List Char → List Char
  | '+' :: cs => cs
  | cs => cs

/-- The value of a text of hexadecimal digits that fits 64 bits. -/
def value? (text : String) : Option Nat :=
  (Hex.read? (dropPlus text.toList)).filter (· < wordLimit)

/-- Reads a fingerprint; the error carries the text itself. -/
def read (text : String) : Except DomainError Fingerprint :=
  match value? text with
  | some n => .ok ⟨UInt64.ofNat n⟩
  | none => .error (.invalidFingerprint text)

/-- In JSON a fingerprint is the string of its written form. -/
def toJson (fp : Fingerprint) : Json := .string fp.hex

/-- Reads a fingerprint out of any string that is read as one. -/
def ofJson : Json → Except Json.Fault Fingerprint := Json.asText fun text => (read text).toOption

theorem dropPlus_of_head {c : Char} {cs : List Char} (h : c ≠ '+') :
    dropPlus (c :: cs) = c :: cs := by
  unfold dropPlus
  split
  · next heq => exact absurd (List.head_eq_of_cons_eq heq) h
  · rfl

/-- Reading what was written gives the fingerprint back. -/
theorem read_hex (fp : Fingerprint) : read fp.hex = .ok fp := by
  obtain ⟨bits⟩ := fp
  have hb : bits.toNat < Nat.pow 16 16 := bits.toNat_lt
  have hr := Hex.readFrom_write 16 bits.toNat 0 hb
  have hd : dropPlus (Hex.write 16 bits.toNat) = Hex.write 16 bits.toNat := by
    cases hw : Hex.write 16 bits.toNat with
    | nil => rfl
    | cons c cs =>
      by_cases hc : c = '+'
      · subst hc
        rw [hw] at hr
        have : Hex.value? '+' = none := by decide
        simp [Hex.readFrom, this] at hr
      · exact dropPlus_of_head hc
  have hn : Hex.read? (Hex.write 16 bits.toNat) = some bits.toNat := by
    have hl := Hex.length_write 16 bits.toNat
    cases hw : Hex.write 16 bits.toNat with
    | nil => simp [hw] at hl
    | cons c cs =>
      rw [hw] at hr
      simpa [Hex.read?] using hr
  have hlt : bits.toNat < wordLimit := bits.toNat_lt
  simp only [read, value?, hex, String.toList_ofList, hd, hn, Option.filter_some, hlt, decide_true,
    if_true]
  simp

end Fingerprint

end AlertFlow
