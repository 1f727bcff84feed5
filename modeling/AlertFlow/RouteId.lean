import AlertFlow.Fingerprint

/-!
Route identifiers: 128 bits, written in groups of 8, 4, 4, 4 and 12 hexadecimal digits joined by
hyphens. Readers also take the digits without hyphens, and the hyphenated form inside braces or
after the name-space mark of a UUID.
-/
namespace AlertFlow

structure RouteId where
  bits : BitVec 128
deriving DecidableEq

namespace RouteId

instance : Inhabited RouteId := ⟨⟨0⟩⟩

/-- The identity with a number; numbers below 2^128 have different identities. -/
def ofNat (n : Nat) : RouteId := ⟨BitVec.ofNat 128 n⟩

/-- The sizes of the groups of digits. -/
def groupSizes : List Nat := [8, 4, 4, 4, 12]

/-- The digits of a text in groups of the given sizes joined by hyphens. -/
def ungroup : List Nat → List Char → Option (List Char)
  | [], _ => none
  | [n], cs => if cs.length = n then some cs else none
  | n :: sizes, cs =>
    match cs.drop n with
    | '-' :: rest => (ungroup sizes rest).map (cs.take n ++ ·)
    | _ => none

/-- The digits joined by hyphens into groups of the given sizes. -/
def group : List Nat → List Char → List Char
  | [], cs => cs
  | [_], cs => cs
  | n :: sizes, cs => cs.take n ++ '-' :: group sizes (cs.drop n)

/-- The mark that may stand in front of the hyphenated form, in either case. -/
def nameSpace : List Char := "urn:uuid:".toList

/-- The 32 digits of a written identifier, in any of its forms. -/
def digits? (cs : List Char) : Option (List Char) :=
  if cs.length = 32 then some cs
  else if cs.head? = some '\x7b' ∧ cs.getLast? = some '\x7d' then
    ungroup groupSizes (cs.drop 1).dropLast
  else if (cs.take nameSpace.length).map Char.toLower = nameSpace then
    ungroup groupSizes (cs.drop nameSpace.length)
  else ungroup groupSizes cs

def read (text : String) : Except DomainError RouteId :=
  match (digits? text.toList).bind Hex.read? with
  | some n => .ok (.ofNat n)
  | none => .error (.invalidId "RouteId")

/-- The hyphenated form, in lower case. -/
def write (id : RouteId) : String := String.ofList (group groupSizes (Hex.write 32 id.bits.toNat))

/-- An identifier is hashed as its sixteen bytes, highest first. -/
instance : HashLayout RouteId := ⟨fun id => bigEndian 16 id.bits.toNat⟩

def fingerprint (id : RouteId) : Fingerprint := .of id

end RouteId

end AlertFlow
