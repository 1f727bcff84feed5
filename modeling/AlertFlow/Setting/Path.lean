import AlertFlow.Setting
import AlertFlow.Text.Decimal

/-!
Paths to settings: names joined by points, and numbers in brackets for the items of lists, counted
from the end where they are negative. Writing at a path makes the tables and lists on the way that
are not there, in place of whatever else stands there.
-/
namespace AlertFlow.Setting

/-- A step down into a setting. -/
inductive Step where
  | member (name : String)
  | item (index : Int)
deriving DecidableEq, Repr

/-- A character that can stand in a name on a path. -/
def isNameChar (c : Char) : Bool := c.isAlphanum || c = '_' || c = '-' || c = ' '

/-- What of a step has been read. -/
inductive StepState where
  | name (letters : List Char)
  | index (digits : List Char)
  | complete

/-- The step that has been read, if it is one. -/
def StepState.finish? : StepState → Option (List Step)
  | name [] => none
  | name letters => some [.member (String.ofList letters)]
  | index _ => none
  | complete => some []

/-- The number of an item, with blanks around it and a minus sign for counting from the end. -/
def readIndex? (cs : List Char) : Option Int :=
  let inner := (cs.dropWhile (· = ' ')).reverse.dropWhile (· = ' ')
  match inner.reverse with
  | '-' :: ds => (Decimal.read? ds).map fun n => -(n : Int)
  | ds => (Decimal.read? ds).map Int.ofNat

def StepState.step (done : List Step) (s : StepState) (c : Char) :
    Option (List Step × StepState) :=
  match s with
  | index digits =>
    if c = ']' then (readIndex? digits).map fun i => (done ++ [.item i], complete)
    else some (done, index (digits ++ [c]))
  | s =>
    if c = '.' then s.finish?.map fun more => (done ++ more, name [])
    else if c = '[' then s.finish?.map fun more => (done ++ more, index [])
    else
      match s with
      | name letters => if isNameChar c then some (done, name (letters ++ [c])) else none
      | _ => none

def readPath? (text : String) : Option (List Step) := do
  let (done, s) ← text.toList.foldlM (fun p c => p.2.step p.1 c) ([], StepState.name [])
  return done ++ (← s.finish?)

/-- The place of an item in a list of the given length. -/
def place (length : Nat) (index : Int) : Nat :=
  if index < 0 then length - index.natAbs else index.toNat

/-- Writes a setting at a path; a table is merged into what is there. -/
def write (s : Setting) : List Step → Setting → Setting
  | [], _ => s
  | [.member name], current => table (mergeMember name current.members s)
  | .member name :: path, current =>
    let name := Text.lower name
    let below := (current.members.get? name).getD null
    table (current.members.put name (write s path below))
  | .item index :: path, current =>
    let i := place current.items.length index
    let items := current.items ++ List.replicate (i + 1 - current.items.length) null
    list (items.set i (write s path (items[i]?.getD null)))

/-- Writes a setting under a key: at the path that it spells, or under the key itself. -/
def writeKey (current : Setting) (key : String) (s : Setting) : Setting :=
  write s ((readPath? key).getD [.member key]) current

end AlertFlow.Setting
