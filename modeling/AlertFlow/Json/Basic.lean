import AlertFlow.LabelSet
import AlertFlow.Text.Decimal

/-!
JSON values as a reader meets them. Objects keep their members in order and with repetitions, and
numbers keep their spelling, because the records read from them tell `1` from `1.0` and refuse a
field given twice. A text that stops being JSON part-way is a value as well, holding `cut` at the
place: what stands in front of it can still be of the wrong shape, and the first problem from the
left is the one reported.
-/
namespace AlertFlow

/-- A JSON value, or as much of one as a text holds. -/
inductive Json where
  | null
  | bool (b : Bool)
  | number (literal : String)
  | string (text : String)
  /-- A string with an escape for half a surrogate pair: in shape a string, but no text. -/
  | unpaired
  | array (items : List Json)
  /-- Members in order; the name is absent where it cannot be read as text. -/
  | object (members : List (Option String × Json))
  /-- The text is no JSON from here on. -/
  | cut

namespace Json

instance : Inhabited Json := ⟨null⟩

def record (members : List (String × Json)) : Json := object (members.map fun m => (some m.1, m.2))

def nat (n : Nat) : Json := number (String.ofList (Decimal.write n))

def int (n : Int) : Json := number (String.ofList (Decimal.writeInt n))

def optional {α : Type} (f : α → Json) : Option α → Json
  | none => null
  | some a => f a

/-- An object whose members are the labels of a set. -/
def labels (s : LabelSet) : Json := record (s.toList.map fun p => (p.1, string p.2))

mutual

/-- Whether a value is JSON to its end. -/
def isWhole : Json → Bool
  | cut => false
  | array items => areWhole items
  | object members => areMembersWhole members
  | _ => true

def areWhole : List Json → Bool
  | [] => true
  | j :: rest => isWhole j && areWhole rest

def areMembersWhole : List (Option String × Json) → Bool
  | [] => true
  | (_, j) :: rest => isWhole j && areMembersWhole rest

end

mutual

/-- How many levels of values are nested in a value, itself included. -/
def depth : Json → Nat
  | array items => depthOfItems items + 1
  | object members => depthOfMembers members + 1
  | _ => 1

def depthOfItems : List Json → Nat
  | [] => 0
  | j :: rest => max (depth j) (depthOfItems rest)

def depthOfMembers : List (Option String × Json) → Nat
  | [] => 0
  | (_, j) :: rest => max (depth j) (depthOfMembers rest)

end

/-- The last member of a name in an object. -/
def get? (name : String) : Json → Option Json
  | object members => (members.reverse.find? fun m => m.1 == some name).map Prod.snd
  | _ => none

end Json

end AlertFlow
