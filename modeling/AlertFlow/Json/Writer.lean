import AlertFlow.Json.Basic
import AlertFlow.Text.Hex

/-!
Writing JSON text, without blanks. Strings escape quotes, backslashes and control characters only.
-/
namespace AlertFlow.Json

def escape (c : Char) : List Char :=
  if c = '"' then ['\\', '"']
  else if c = '\\' then ['\\', '\\']
  else if c = '\n' then ['\\', 'n']
  else if c = '\r' then ['\\', 'r']
  else if c = '\t' then ['\\', 't']
  else if c = '\x08' then ['\\', 'b']
  else if c = '\x0c' then ['\\', 'f']
  else if c.toNat < 0x20 then '\\' :: 'u' :: Hex.write 4 c.toNat
  else [c]

def quote (s : String) : List Char := '"' :: s.toList.flatMap escape ++ ['"']

mutual

/-- The characters of a written value. A value that is no JSON to its end has no written form, and
nothing is written in the place where it breaks off. -/
def render : Json → List Char
  | null => "null".toList
  | bool true => "true".toList
  | bool false => "false".toList
  | number literal => literal.toList
  | string s => quote s
  | unpaired => quote ""
  | array items => '[' :: renderItems items ++ [']']
  | object members => '\x7b' :: renderMembers members ++ ['\x7d']
  | cut => []

def renderItems : List Json → List Char
  | [] => []
  | [j] => render j
  | j :: rest => render j ++ ',' :: renderItems rest

def renderMembers : List (Option String × Json) → List Char
  | [] => []
  | [(name, j)] => quote (name.getD "") ++ ':' :: render j
  | (name, j) :: rest => quote (name.getD "") ++ ':' :: render j ++ ',' :: renderMembers rest

end

def write (j : Json) : String := String.ofList (render j)

end AlertFlow.Json
