import AlertFlow.Json.Basic
import AlertFlow.Text.Hex

/-!
Reading JSON text, strictly: no comments, no comma before a closing bracket, no leading zeros, no
raw control characters in strings. The reader never fails; where the text stops being JSON it
leaves `cut` and gives back no rest. Its fuel is spent one unit a call, and a text of `n`
characters needs at most `2 * n + 1`.
-/
namespace AlertFlow.Json

/-- The blanks that JSON allows between tokens. -/
def isSpace (c : Char) : Bool := c = ' ' || c = '\t' || c = '\n' || c = '\r'

/-- A text without the blanks in front. -/
def skipSpace (cs : List Char) : List Char := cs.dropWhile isSpace

/-- An element of a written string: a character, or the number of a four-digit escape. -/
inductive Piece where
  | char (c : Char)
  | unit (n : Nat)

/-- The character that a one-letter escape stands for. -/
def escaped? : Char → Option Char
  | '"' => some '"'
  | '\\' => some '\\'
  | '/' => some '/'
  | 'b' => some '\x08'
  | 'f' => some '\x0c'
  | 'n' => some '\n'
  | 'r' => some '\r'
  | 't' => some '\t'
  | _ => none

/-- The pieces of a string up to its closing quote, and the rest of the text. -/
def pieces? : List Char → Option (List Piece × List Char)
  | [] => none
  | '"' :: cs => some ([], cs)
  | '\\' :: 'u' :: a :: b :: c :: d :: cs =>
    match Hex.read? [a, b, c, d] with
    | some n => (pieces? cs).map fun p => (.unit n :: p.1, p.2)
    | none => none
  | '\\' :: e :: cs =>
    match escaped? e with
    | some c => (pieces? cs).map fun p => (.char c :: p.1, p.2)
    | none => none
  | c :: cs =>
    if c.toNat < 0x20 then none else (pieces? cs).map fun p => (.char c :: p.1, p.2)

/-- Whether an escape is the first half of a surrogate pair. -/
def isHighHalf (n : Nat) : Bool := 0xd800 ≤ n && n < 0xdc00

/-- Whether an escape is the second half of a surrogate pair. -/
def isLowHalf (n : Nat) : Bool := 0xdc00 ≤ n && n < 0xe000

/-- The characters of a string, if every half of a surrogate pair has its other half behind or in
front of it. -/
def join? : List Piece → Option (List Char)
  | [] => some []
  | .char c :: ps => (join? ps).map (c :: ·)
  | .unit n :: .unit m :: ps =>
    if isHighHalf n then
      if isLowHalf m then
        (join? ps).map (Char.ofNat (0x10000 + (n - 0xd800) * 0x400 + (m - 0xdc00)) :: ·)
      else none
    else if isLowHalf n then none
    else (join? (.unit m :: ps)).map (Char.ofNat n :: ·)
  | .unit n :: ps =>
    if isHighHalf n || isLowHalf n then none else (join? ps).map (Char.ofNat n :: ·)

/-- The text that the pieces of a string spell, if they spell one. -/
def text? (ps : List Piece) : Option String := (join? ps).map String.ofList

/-- A run of one or more digits and the rest. -/
def digits? (cs : List Char) : Option (List Char × List Char) :=
  let ds := cs.takeWhile Decimal.isDigit
  if ds.isEmpty then none else some (ds, cs.dropWhile Decimal.isDigit)

/-- The integer part of a number: digits without a leading zero. -/
def integerPart? (cs : List Char) : Option (List Char × List Char) :=
  match digits? cs with
  | some ('0' :: _ :: _, _) => none
  | r => r

def fractionPart? : List Char → Option (List Char × List Char)
  | '.' :: cs => (digits? cs).map fun p => ('.' :: p.1, p.2)
  | cs => some ([], cs)

def exponentSign : List Char → List Char × List Char
  | '+' :: cs => (['+'], cs)
  | '-' :: cs => (['-'], cs)
  | cs => ([], cs)

/-- The exponent of a number, if its letter follows. -/
def exponentPart? : List Char → Option (List Char × List Char)
  | [] => some ([], [])
  | c :: cs =>
    if c = 'e' ∨ c = 'E' then
      let (sign, cs) := exponentSign cs
      (digits? cs).map fun p => (c :: sign ++ p.1, p.2)
    else some ([], c :: cs)

/-- The spelling of a number without its sign, and the rest. -/
def unsigned? (cs : List Char) : Option (List Char × List Char) := do
  let (whole, cs) ← integerPart? cs
  let (fraction, cs) ← fractionPart? cs
  let (exponent, cs) ← exponentPart? cs
  some (whole ++ fraction ++ exponent, cs)

def number? : List Char → Option (List Char × List Char)
  | '-' :: cs => (unsigned? cs).map fun p => ('-' :: p.1, p.2)
  | cs => unsigned? cs

/-- A value without parts at the front of a text, and the rest if the text is JSON so far. -/
def scalar : List Char → Json × Option (List Char)
  | '"' :: cs =>
    match pieces? cs with
    | none => (cut, none)
    | some (ps, rest) =>
      match text? ps with
      | some s => (string s, some rest)
      | none => (unpaired, some rest)
  | 't' :: 'r' :: 'u' :: 'e' :: cs => (bool true, some cs)
  | 'f' :: 'a' :: 'l' :: 's' :: 'e' :: cs => (bool false, some cs)
  | 'n' :: 'u' :: 'l' :: 'l' :: cs => (null, some cs)
  | cs =>
    match number? cs with
    | some (literal, rest) => (number (String.ofList literal), some rest)
    | none => (cut, none)

mutual

def value : (fuel : Nat) → List Char → Json × Option (List Char)
  | 0, _ => (cut, none)
  | fuel + 1, cs =>
    match skipSpace cs with
    | '[' :: cs =>
      match skipSpace cs with
      | ']' :: cs => (array [], some cs)
      | cs =>
        let (items, rest) := items fuel cs
        (array items, rest)
    | '\x7b' :: cs =>
      match skipSpace cs with
      | '\x7d' :: cs => (object [], some cs)
      | cs =>
        let (members, rest) := members fuel cs
        (object members, rest)
    | cs => scalar cs

/-- The items of an array from the first on. -/
def items : (fuel : Nat) → List Char → List Json × Option (List Char)
  | 0, _ => ([cut], none)
  | fuel + 1, cs =>
    match value fuel cs with
    | (j, none) => ([j], none)
    | (j, some cs) =>
      match skipSpace cs with
      | ',' :: cs =>
        let (more, rest) := items fuel cs
        (j :: more, rest)
      | ']' :: cs => ([j], some cs)
      | _ => ([j, cut], none)

/-- The members of an object from the first name on. -/
def members : (fuel : Nat) → List Char → List (Option String × Json) × Option (List Char)
  | 0, _ => ([(none, cut)], none)
  | fuel + 1, cs =>
    match skipSpace cs with
    | '"' :: cs =>
      match pieces? cs with
      | none => ([(none, cut)], none)
      | some (ps, cs) =>
        let name := text? ps
        match skipSpace cs with
        | ':' :: cs =>
          match value fuel cs with
          | (j, none) => ([(name, j)], none)
          | (j, some cs) =>
            match skipSpace cs with
            | ',' :: cs =>
              let (more, rest) := members fuel cs
              ((name, j) :: more, rest)
            | '\x7d' :: cs => ([(name, j)], some cs)
            | _ => ([(name, j), (none, cut)], none)
        | _ => ([(name, cut)], none)
    | _ => ([(none, cut)], none)

end

/-- What a text holds: a value, and whether nothing but blanks follows it. -/
structure Document where
  value : Json
  isClosed : Bool

def read (text : String) : Document :=
  let cs := text.toList
  match value (2 * cs.length + 1) cs with
  | (j, some rest) => ⟨j, (skipSpace rest).isEmpty⟩
  | (j, none) => ⟨j, false⟩

end AlertFlow.Json
