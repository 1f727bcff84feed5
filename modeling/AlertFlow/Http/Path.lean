import AlertFlow.Text.Hex

/-!
Paths of requests: what stands in front of a query or a fragment, cut at the slashes. A segment is
decoded from its percent escapes only when its value is asked for.
-/
namespace AlertFlow.Path

/-- The pieces of a text between slashes. -/
def split : List Char → List (List Char)
  | [] => [[]]
  | c :: cs =>
    match split cs with
    | [] => [[c]]
    | piece :: rest => if c = '/' then [] :: piece :: rest else (c :: piece) :: rest

def segments (target : String) : List String :=
  (split (target.toList.takeWhile fun c => c ≠ '?' && c ≠ '#')).map String.ofList

/-- The value of a byte that is a hexadecimal digit. -/
def hexValue? (b : UInt8) : Option Nat := Hex.value? (Char.ofNat b.toNat)

/-- Bytes with their percent escapes replaced; a percent sign without two digits stands for itself.
-/
def unescape : List UInt8 → List UInt8
  | [] => []
  | b :: h :: l :: rest =>
    if b = 0x25 then
      match hexValue? h, hexValue? l with
      | some x, some y => UInt8.ofNat (16 * x + y) :: unescape rest
      | _, _ => b :: unescape (h :: l :: rest)
    else b :: unescape (h :: l :: rest)
  | b :: rest => b :: unescape rest

/-- The text of a segment, if its bytes are UTF-8. -/
def decode? (segment : String) : Option String :=
  String.fromUTF8? ⟨(unescape segment.toUTF8.toList).toArray⟩

end AlertFlow.Path
