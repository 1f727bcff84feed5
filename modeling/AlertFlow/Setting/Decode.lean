import AlertFlow.NameSet
import AlertFlow.LabelSet
import AlertFlow.Number.Shortest
import AlertFlow.Setting

/-!
Settings as values. The sources of settings do not agree on types, since an environment knows texts
only, so plain values are taken for one another where that makes sense: a number has its text, a
truth value can be a number or a word. Lists and tables are never anything else.
-/
namespace AlertFlow.Setting

def yesWords : List String := ["true", "on", "yes"]

def noWords : List String := ["false", "off", "no"]

/-- A text, or a plain value that has one. -/
def asText? : Setting → Option String
  | text s => some s
  | bool b => some (if b then "true" else "false")
  | int n => some (String.ofList (Decimal.writeInt n))
  | float x => some x.write
  | _ => none

/-- A truth value. A number is true unless it is zero. -/
def asBool? : Setting → Option Bool
  | bool b => some b
  | int n => some (n != 0)
  | float x => some !x.isZero
  | text s =>
    let word := Text.lower s
    if word = "1" ∨ yesWords.contains word then some true
    else if word = "0" ∨ noWords.contains word then some false
    else none
  | _ => none

/-- An unsigned 64-bit number. One with a fraction is rounded into the range; a truth value counts
as one or zero. -/
def asWord? : Setting → Option Nat
  | int n => if 0 ≤ n ∧ n < wordLimit then some n.toNat else none
  | bool b => some b.toNat
  | float x => some (x.roundWithin (wordLimit - 1))
  | text s =>
    let word := Text.lower s
    if yesWords.contains word then some 1
    else if noWords.contains word then some 0
    else Decimal.readWord? s
  | _ => none

def asList? {α : Type} (item : Setting → Option α) : Setting → Option (List α)
  | list items => items.mapM item
  | _ => none

/-- A list of names, taken as a set. -/
def asNames? (s : Setting) : Option NameSet := (s.asList? asText?).map .ofList

def asLabels? : Setting → Option LabelSet
  | table members =>
    (members.mapM fun (m : String × Setting) => m.2.asText?.map fun value => (m.1, value)).map
      .ofList
  | _ => none

/-- A value whose absence null stands for. -/
def asOptional? {α : Type} (value : Setting → Option α) : Setting → Option (Option α)
  | null => some none
  | s => (value s).map some

/-- A field of a record: absent, or present with a value that must be readable. -/
def readField {α : Type} (value : Setting → Option α) (default : α) : Option Setting → Option α
  | none => some default
  | some s => value s

/-- The fields of a record, by name in a table or by place in a list. -/
def asRecord? (names : List String) : Setting → Option (String → Option Setting)
  | table members => some (Members.get? · members)
  | list items => some ((names.zip items).lookup ·)
  | _ => none

end AlertFlow.Setting
