import AlertFlow.Number.Binary64
import AlertFlow.Text.LetterCase

/-!
Settings before they have a meaning: a tree of tables, lists and plain values, put together from
several sources. Tables are merged name by name, a later source winning, and their names are kept in
lower case, so the case in which a source writes them does not matter. What stands inside a list is
taken as it is.
-/
namespace AlertFlow

inductive Setting where
  | null
  | bool (b : Bool)
  | int (n : Int)
  | float (x : Binary64)
  | text (s : String)
  | list (items : List Setting)
  /-- The members of a table, by name. -/
  | table (members : List (String × Setting))

namespace Setting

instance : Inhabited Setting := ⟨null⟩

abbrev Members := List (String × Setting)

def Members.get? (name : String) (members : Members) : Option Setting := members.lookup name

/-- Writes a member, in place of one of the same name. -/
def Members.put (name : String) (s : Setting) : Members → Members
  | [] => [(name, s)]
  | m :: rest => if m.1 = name then (name, s) :: rest else m :: Members.put name s rest

mutual

/-- Merges a setting into the member of a name, in lower case. A table is merged into the table
there; where something else stands in its place it is dropped. Any other setting takes the place.
-/
def mergeMember (name : String) (members : Members) : Setting → Members
  | table incoming =>
    let name := Text.lower name
    match members.get? name with
    | some (table present) => members.put name (table (mergeAll present incoming))
    | some _ => members
    | none => members.put name (table (mergeAll [] incoming))
  | s => members.put (Text.lower name) s

/-- Merges the members of a table into others. -/
def mergeAll (members : Members) : List (String × Setting) → Members
  | [] => members
  | (name, s) :: rest => mergeAll (mergeMember name members s) rest

end

/-- The members of a setting that is a table, and none for any other. -/
def members : Setting → Members
  | table members => members
  | _ => []

/-- The items of a setting that is a list, and none for any other. -/
def items : Setting → List Setting
  | list items => items
  | _ => []

mutual

/-- How many levels of settings are nested in a setting, itself included. -/
def depth : Setting → Nat
  | list items => depthOfItems items + 1
  | table members => depthOfMembers members + 1
  | _ => 1

def depthOfItems : List Setting → Nat
  | [] => 0
  | s :: rest => max (depth s) (depthOfItems rest)

def depthOfMembers : List (String × Setting) → Nat
  | [] => 0
  | (_, s) :: rest => max (depth s) (depthOfMembers rest)

end

end Setting

end AlertFlow
