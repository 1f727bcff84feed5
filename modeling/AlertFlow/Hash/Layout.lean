import AlertFlow.LabelSet

/-!
The bytes that stand for a value when it is hashed. Numbers are little-endian in their own width, a
text is its UTF-8 bytes closed by a byte that no UTF-8 text holds, and a sequence is preceded by its
length, so that two values of one type never share their bytes.
-/
namespace AlertFlow

/-- The `width` low bytes of a number, lowest first. -/
def littleEndian : (width n : Nat) → List UInt8
  | 0, _ => []
  | w + 1, n => UInt8.ofNat (n % 256) :: littleEndian w (n / 256)

/-- The `width` low bytes of a number, highest first. -/
def bigEndian (width n : Nat) : List UInt8 := (littleEndian width n).reverse

/-- A text closed by the byte 255, which UTF-8 never uses. -/
def closedText (s : String) : List UInt8 := s.toUTF8.toList ++ [0xff]

/-- The bytes under which a value is hashed. -/
class HashLayout (α : Type) where
  layout : α → List UInt8

instance : HashLayout String := ⟨closedText⟩

instance : HashLayout UInt8 := ⟨fun n => [n]⟩

instance : HashLayout UInt32 := ⟨fun n => littleEndian 4 n.toNat⟩

instance : HashLayout UInt64 := ⟨fun n => littleEndian 8 n.toNat⟩

instance : HashLayout Bool := ⟨fun b => [if b then 1 else 0]⟩

instance {α : Type} [HashLayout α] : HashLayout (List α) :=
  ⟨fun l => littleEndian 8 l.length ++ l.flatMap HashLayout.layout⟩

instance {α β : Type} [HashLayout α] [HashLayout β] : HashLayout (α × β) :=
  ⟨fun p => HashLayout.layout p.1 ++ HashLayout.layout p.2⟩

instance : HashLayout LabelSet := ⟨fun s => HashLayout.layout s.toList⟩

end AlertFlow
