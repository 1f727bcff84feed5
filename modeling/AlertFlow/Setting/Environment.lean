import AlertFlow.Setting.Path

/-!
Settings from environment variables. A variable counts if its name begins with the mark of the
program, in any case; the rest of the name, in lower case, is a path with two underscores in the
place of each point, and the value is a text.
-/
namespace AlertFlow.Setting

/-- What the names of the variables begin with, in lower case. -/
def environmentMark : List Char := "muster__".toList

/-- A name with a point in place of two underscores. -/
def pointed : List Char → List Char
  | '_' :: '_' :: cs => '.' :: pointed cs
  | c :: cs => c :: pointed cs
  | [] => []

/-- The key that a variable writes, if it counts. -/
def variableKey? (name : String) : Option String :=
  let cs := (Text.lower name).toList
  if environmentMark.isPrefixOf cs then
    some (String.ofList (pointed (cs.drop environmentMark.length)))
  else none

/-- Writes the variables of an environment over settings. -/
def withEnvironment (s : Setting) (environment : List (String × String)) : Setting :=
  environment.foldl (fun s v =>
    match variableKey? v.1 with
    | some key => s.writeKey key (text v.2)
    | none => s) s

end AlertFlow.Setting
