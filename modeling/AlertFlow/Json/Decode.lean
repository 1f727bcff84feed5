import AlertFlow.Json.Reader
import AlertFlow.NameSet
import AlertFlow.Number.Binary64

/-!
Reading typed values out of JSON. There is no coercion: a string field takes a string, a number
field an integer literal of its range, and null stands for an absent value only where absence is
allowed. Two kinds of fault are told apart, because callers answer them differently: text that is
no JSON, and JSON of the wrong shape. Reading goes from left to right and the first fault decides.
-/
namespace AlertFlow.Json

/-- Why a value could not be read. -/
inductive Fault where
  | malformed
  /-- The JSON is not of the shape asked for. -/
  | mismatch
deriving DecidableEq, Repr

/-- Whether a number is beyond what a double can hold. -/
def isHuge (literal : String) : Bool :=
  match Binary64.read? literal.toList with
  | some (.infinite _) => true
  | _ => false

/-- The fault of meeting a value where another kind of value is asked for. A value without parts is
read to its end first, so its own defects come before its shape. -/
def wrongShape : Json → Fault
  | cut => .malformed
  | unpaired => .malformed
  | number literal => if isHuge literal then .malformed else .mismatch
  | _ => .mismatch

def asString : Json → Except Fault String
  | string s => .ok s
  | j => .error j.wrongShape

def asBool : Json → Except Fault Bool
  | bool b => .ok b
  | j => .error j.wrongShape

/-- An unsigned 64-bit number, spelt with digits only. -/
def asWord : Json → Except Fault Nat
  | number literal =>
    match (Decimal.read? literal.toList).filter (· < wordLimit) with
    | some n => .ok n
    | none => .error (number literal).wrongShape
  | j => .error j.wrongShape

/-- A string that a reader of texts accepts. -/
def asText {α : Type} (parse? : String → Option α) (j : Json) : Except Fault α := do
  let s ← asString j
  match parse? s with
  | some a => .ok a
  | none => .error .mismatch

def asList {α : Type} (item : Json → Except Fault α) : Json → Except Fault (List α)
  | array items => items.mapM item
  | j => .error j.wrongShape

/-- An object from names to strings; the last value of a name stands. -/
def asLabels : Json → Except Fault LabelSet
  | object members =>
    members.foldlM (fun s m =>
      match m.1 with
      | some name => (asString m.2).map (s.insert name)
      | none => .error .malformed) .empty
  | j => .error j.wrongShape

/-- A list of names, taken as a set. -/
def asNames (j : Json) : Except Fault NameSet := (asList asString j).map .ofList

/-- A value that null stands for the absence of. -/
def asOptional {α : Type} (value : Json → Except Fault α) : Json → Except Fault (Option α)
  | null => .ok none
  | j => (value j).map some

/-- Reads a field that must not have been read before. -/
def fill {α : Type} (slot : Option α) (value : Json → Except Fault α) (j : Json) :
    Except Fault (Option α) :=
  if slot.isSome then .error .mismatch else (value j).map some

def require {α : Type} (slot : Option α) : Except Fault α :=
  match slot with
  | some a => .ok a
  | none => .error .mismatch

/-- How the fields of a record are collected: their names in the order of the positional form, and
what each does to the fields read so far. -/
structure RecordReader (δ : Type) where
  names : List String
  field : String → Json → δ → Except Fault δ

namespace RecordReader

variable {δ : Type}

/-- Takes in one member of an object; a member of an unknown name must only be JSON. -/
def takeMember (r : RecordReader δ) (fields : δ) (m : Option String × Json) : Except Fault δ :=
  match m.1 with
  | none => .error .malformed
  | some name =>
    if r.names.contains name then r.field name m.2 fields
    else if m.2.isWhole then .ok fields
    else .error .malformed

/-- Collects the fields of a record, written as an object or as an array of its first fields. -/
def collect (r : RecordReader δ) (start : δ) : Json → Except Fault δ
  | object members => members.foldlM r.takeMember start
  | array items => do
    let fields ← (r.names.zip items).foldlM (fun fields m => r.field m.1 m.2 fields) start
    if items.length ≤ r.names.length then .ok fields else .error .malformed
  | j => .error j.wrongShape

end RecordReader

/-- Reads a typed value from a text, which must hold nothing else. -/
def decode {α : Type} (value : Json → Except Fault α) (text : String) : Except Fault α := do
  let document := read text
  let a ← value document.value
  if document.isClosed then .ok a else .error .malformed

end AlertFlow.Json
