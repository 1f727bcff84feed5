import AlertFlow.Setting
import AlertFlow.Text.Hex
import AlertFlow.Yaml.Spot

/-!
Texts in a settings file. A text is plain, or stands in single quotes, where a quote is written
twice, or in double quotes, where a backslash begins an escape. It may run over several lines: a
line break counts as a blank, and each empty line as a line break. A plain text can be a word for
null or a truth value, or a number; a quoted one is always a text.
-/
namespace AlertFlow.Yaml

/-- What stands between two characters of a text. -/
inductive Fold where
  | blanks (cs : List Char)
  /-- A line break and some empty lines; an escaped break leaves no trace. -/
  | breaks (emptyLines : Nat) (isEscaped : Bool)

namespace Fold

def nothing : Fold := blanks []

def chars : Fold → List Char
  | blanks cs => cs
  | breaks 0 false => [' ']
  | breaks n _ => List.replicate n '\n'

/-- With one more blank; at the start of a line it does not count. -/
def addBlank (c : Char) : Fold → Fold
  | blanks cs => blanks (cs ++ [c])
  | f => f

/-- With one more line break; blanks at the end of a line do not count. -/
def addBreak : Fold → Fold
  | blanks _ => breaks 0 false
  | breaks n isEscaped => breaks (n + 1) isEscaped

def isBreak : Fold → Bool
  | blanks _ => false
  | breaks _ _ => true

def isNothing : Fold → Bool
  | blanks cs => cs.isEmpty
  | breaks _ _ => false

end Fold

/-- A text that has been read so far, with its characters in reverse. -/
structure Draft where
  reversed : List Char := []
  fold : Fold := .nothing
  isMultiline : Bool := false

namespace Draft

def take (d : Draft) (c : Char) : Draft :=
  { reversed := c :: (d.fold.chars.reverse ++ d.reversed)
    isMultiline := d.isMultiline || d.fold.isBreak }

/-- Takes in an escaped line break. -/
def takeEscapedBreak (d : Draft) : Draft :=
  { reversed := d.fold.chars.reverse ++ d.reversed
    fold := .breaks 0 true
    isMultiline := true }

def addBlank (d : Draft) (c : Char) : Draft := { d with fold := d.fold.addBlank c }

def addBreak (d : Draft) : Draft := { d with fold := d.fold.addBreak }

/-- The text without what stands behind its last character. -/
def text (d : Draft) : List Char := d.reversed.reverse

/-- The text with all that stands in front of a closing quote. -/
def quoted (d : Draft) : List Char := d.text ++ d.fold.chars

end Draft

/-- A value without members of its own block, as it stands in the text. -/
structure Leaf where
  value : Setting
  /-- What it is as the name of a member, if it can be one. -/
  key? : Option String
  /-- Whether it has an end of its own, a quote or a bracket. -/
  isClosed : Bool
  isMultiline : Bool
  /-- The place behind it. -/
  spot : Spot

/-! ## Plain texts -/

/-- A character with a meaning inside brackets. -/
def isFlowIndicator (c : Char) : Bool := [',', '[', ']', '\x7b', '\x7d'].contains c

/-- A character that no plain text can begin with. -/
def isIndicator (c : Char) : Bool :=
  isFlowIndicator c || ['#', '&', '*', '!', '|', '>', '\'', '"', '%', '@', '\x60'].contains c

/-- Whether the rest behind a mark such as a colon makes it one. -/
def isMarkBehind (inFlow : Bool) (cs : List Char) : Bool :=
  isGap cs || (inFlow && (cs.head?.map isFlowIndicator).getD false)

/-- Whether a plain text can begin here. -/
def startsPlain (inFlow : Bool) : List Char → Bool
  | [] => false
  | c :: cs => !isIndicator c && !(['-', '?', ':'].contains c && isMarkBehind inFlow cs)

/-- Whether a line may go on with a text at a place. Outside brackets the text has to be indented to
the floor; inside them, and in quotes, to one column less. -/
def isOnGround (floor : Nat) (isInside : Bool) (s : Spot) : Bool :=
  !s.isMark && floor ≤ s.column + (if isInside then 1 else 0)

/-- Whether a plain text ends in front of this character. -/
def endsPlain (inFlow : Bool) (floor : Nat) (fold : Fold) (column : Nat) (c : Char)
    (cs : List Char) : Bool :=
  (c = '#' && !fold.isNothing) ||
  (c = ':' && isMarkBehind inFlow cs) ||
  (inFlow && isFlowIndicator c) ||
  (fold.isBreak && !isOnGround floor inFlow ⟨column, c :: cs⟩)

/-- Reads on in a plain text, the last character of which ended at a place. -/
def plainFrom (inFlow : Bool) (floor : Nat) (d : Draft) (last : Spot) (column : Nat) :
    List Char → Draft × Spot
  | [] => (d, last)
  | c :: cs =>
    if c = '\n' then plainFrom inFlow floor d.addBreak last 0 cs
    else if isBlankChar c then plainFrom inFlow floor (d.addBlank c) last (column + 1) cs
    else if endsPlain inFlow floor d.fold column c cs then (d, last)
    else plainFrom inFlow floor (d.take c) ⟨column + 1, cs⟩ (column + 1) cs

/-- A signed number, digits being read with a given reader. -/
def signed? (digits? : List Char → Option Nat) : List Char → Option Int
  | '-' :: cs => (digits? cs).map fun n => -(n : Int)
  | '+' :: cs => (digits? cs).map Int.ofNat
  | cs => (digits? cs).map Int.ofNat

/-- The number that one or more octal digits denote. -/
def octal? : List Char → Option Nat
  | [] => none
  | cs => cs.foldlM (fun n c => ((Decimal.value? c).filter (· < 8)).map (8 * n + ·)) 0

/-- A signed 64-bit number: decimal, or hexadecimal behind `0x`, or octal behind `0o`. -/
def integer? (cs : List Char) : Option Int :=
  let read : Option Int :=
    match cs with
    | '0' :: 'x' :: ds => signed? Hex.read? ds
    | '0' :: 'o' :: ds => signed? octal? ds
    | '+' :: ds => signed? Decimal.read? ds
    | ds => signed? Decimal.read? ds
  read.filter fun n => -(signedLimit : Int) ≤ n ∧ n < signedLimit

/-- A number that is no integer in range. Words are no numbers. -/
def float? (cs : List Char) : Option Binary64 :=
  if cs.any Decimal.isDigit then Binary64.read? cs else none

def ofPlain (cs : List Char) : Setting :=
  let s := String.ofList cs
  if s = "~" ∨ s = "null" then .null
  else if s = "true" then .bool true
  else if s = "false" then .bool false
  else
    match integer? cs, float? cs with
    | some n, _ => .int n
    | none, some x => .float x
    | none, none => .text s

/-- A plain text as the name of a member: an integer in its common spelling, all else but null as
written. -/
def plainKey? (cs : List Char) : Option String :=
  match ofPlain cs with
  | .null => none
  | .int n => some (String.ofList (Decimal.writeInt n))
  | _ => some (String.ofList cs)

def plain? (inFlow : Bool) (floor : Nat) (s : Spot) : Option Leaf :=
  if startsPlain inFlow s.rest then
    let (d, last) := plainFrom inFlow floor {} s s.column s.rest
    some { value := ofPlain d.text, key? := plainKey? d.text, isClosed := false,
           isMultiline := d.isMultiline, spot := last }
  else none

/-! ## Quoted texts -/

/-- A quoted text as a value. -/
def Draft.toLeaf (d : Draft) (spot : Spot) : Leaf :=
  let s := String.ofList d.quoted
  { value := .text s, key? := some s, isClosed := true,
    isMultiline := d.isMultiline || d.fold.isBreak, spot := spot }

/-- Reads on in a text in single quotes. -/
def singleFrom (floor : Nat) (d : Draft) (column : Nat) : List Char → Option Leaf
  | [] => none
  | '\'' :: '\'' :: cs => singleFrom floor (d.take '\'') (column + 2) cs
  | c :: cs =>
    if c = '\'' then some (d.toLeaf ⟨column + 1, cs⟩)
    else if c = '\n' then singleFrom floor d.addBreak 0 cs
    else if isBlankChar c then singleFrom floor (d.addBlank c) (column + 1) cs
    else if d.fold.isBreak && !isOnGround floor true ⟨column, c :: cs⟩ then none
    else singleFrom floor (d.take c) (column + 1) cs

/-- Where a reader stands in a text in double quotes. -/
inductive EscapeState where
  | none
  | begun
  /-- In a number of so many more hexadecimal digits. -/
  | hex (left : Nat) (value : Nat)

/-- The character that an escape of one letter stands for. -/
def escaped? (c : Char) : Option Char :=
  [('0', '\x00'), ('a', '\x07'), ('b', '\x08'), ('t', '\t'), ('\t', '\t'), ('n', '\n'),
    ('v', '\x0b'), ('f', '\x0c'), ('r', '\r'), ('e', '\x1b'), (' ', ' '), ('"', '"'), ('/', '/'),
    ('\\', '\\'), ('N', '\u0085'), ('_', '\u00a0'), ('L', '\u2028'), ('P', '\u2029')].lookup c

/-- How many hexadecimal digits follow the letter of an escape. -/
def hexDigits? (c : Char) : Option Nat := [('x', 2), ('u', 4), ('U', 8)].lookup c

/-- The character of a number, if it has one. -/
def char? (n : Nat) : Option Char := if n.isValidChar then some (Char.ofNat n) else none

/-- Reads on in a text in double quotes. -/
def doubleFrom (floor : Nat) (state : EscapeState) (d : Draft) (column : Nat) :
    List Char → Option Leaf
  | [] => none
  | c :: cs =>
    match state with
    | .begun =>
      if c = '\n' then doubleFrom floor .none d.takeEscapedBreak 0 cs
      else
        match escaped? c, hexDigits? c with
        | some e, _ => doubleFrom floor .none (d.take e) (column + 1) cs
        | none, some n => doubleFrom floor (.hex n 0) d (column + 1) cs
        | none, none => none
    | .hex left value =>
      match Hex.value? c with
      | none => none
      | some v =>
        let value := 16 * value + v
        if left ≤ 1 then
          match char? value with
          | some e => doubleFrom floor .none (d.take e) (column + 1) cs
          | none => none
        else doubleFrom floor (.hex (left - 1) value) d (column + 1) cs
    | .none =>
      if c = '"' then some (d.toLeaf ⟨column + 1, cs⟩)
      else if c = '\n' then doubleFrom floor .none d.addBreak 0 cs
      else if isBlankChar c then doubleFrom floor .none (d.addBlank c) (column + 1) cs
      else if d.fold.isBreak && !isOnGround floor true ⟨column, c :: cs⟩ then none
      else if c = '\\' then doubleFrom floor .begun d (column + 1) cs
      else doubleFrom floor .none (d.take c) (column + 1) cs

/-- The text at a place, plain or quoted. -/
def scalar? (inFlow : Bool) (floor : Nat) (s : Spot) : Option Leaf :=
  match s.rest with
  | '\'' :: cs => singleFrom floor {} (s.column + 1) cs
  | '"' :: cs => doubleFrom floor .none {} (s.column + 1) cs
  | _ => plain? inFlow floor s

end AlertFlow.Yaml
