/-!
Places in a settings file. Columns matter, because indentation tells what belongs to what, so a
place is the column together with the rest of the text. Between tokens stand blanks, line breaks
and comments; a tab in front of a token on its line makes the indentation unclear and is refused
outside brackets.
-/
namespace AlertFlow.Yaml

structure Spot where
  column : Nat
  rest : List Char

/-- The place some characters further on in the same line. -/
def Spot.advance (s : Spot) (n : Nat) : Spot := ⟨s.column + n, s.rest.drop n⟩

/-- A text with one kind of line break. -/
def unifyBreaks : List Char → List Char
  | '\r' :: '\n' :: cs => '\n' :: unifyBreaks cs
  | '\r' :: cs => '\n' :: unifyBreaks cs
  | c :: cs => c :: unifyBreaks cs
  | [] => []

def isBlankChar (c : Char) : Bool := c = ' ' || c = '\t'

/-- Whether a text is at its end or goes on with a blank or a line break. -/
def isGap : List Char → Bool
  | [] => true
  | c :: _ => isBlankChar c || c = '\n'

/-- The way from one token to the next. -/
structure Gap where
  /-- Where the next token begins, or the end of the text. -/
  spot : Spot
  /-- Whether the next token is on another line. -/
  isNewLine : Bool
  /-- Whether a tab stands in front of it on its line. -/
  hasTab : Bool

/-- Passes over blanks, line breaks and comments. A comment begins where a number sign follows a
blank or begins a line. -/
def skipFrom (column : Nat) (isNewLine hasTab inComment afterBlank : Bool) : List Char → Gap
  | [] => ⟨⟨column, []⟩, isNewLine, hasTab⟩
  | c :: cs =>
    if c = '\n' then skipFrom 0 true false false true cs
    else if inComment then skipFrom (column + 1) isNewLine hasTab true true cs
    else if c = ' ' then skipFrom (column + 1) isNewLine hasTab false true cs
    else if c = '\t' then skipFrom (column + 1) isNewLine true false true cs
    else if c = '#' ∧ afterBlank then skipFrom (column + 1) isNewLine hasTab true true cs
    else ⟨⟨column, c :: cs⟩, isNewLine, hasTab⟩

/-- The way from behind a token. -/
def Spot.skip (s : Spot) : Gap := skipFrom s.column false false false false s.rest

/-- The way from the start of a text. -/
def firstGap (cs : List Char) : Gap := skipFrom 0 true false false true cs

/-- Whether the mark of a new document stands here. -/
def Spot.isDocumentStart (s : Spot) : Bool :=
  s.column = 0 && s.rest.take 3 = ['-', '-', '-'] && isGap (s.rest.drop 3)

/-- Whether the mark of the end of a document stands here. -/
def Spot.isDocumentEnd (s : Spot) : Bool :=
  s.column = 0 && s.rest.take 3 = ['.', '.', '.'] && isGap (s.rest.drop 3)

/-- Whether a document mark of either kind stands here. -/
def Spot.isMark (s : Spot) : Bool := s.isDocumentStart || s.isDocumentEnd

/-- Whether a document has no token left. -/
def Gap.isEnd (g : Gap) : Bool := g.spot.rest.isEmpty || g.spot.isMark

/-- Whether the indentation of the next token is clear. -/
def Gap.isClear (g : Gap) : Bool := g.isEnd || !(g.isNewLine && g.hasTab)

/-- The way to the next token outside brackets. -/
def Spot.next? (s : Spot) : Option Gap :=
  let g := s.skip
  if g.isClear then some g else none

/-- Whether an item of a list begins here. -/
def Spot.isDash (s : Spot) : Bool := s.rest.head? = some '-' && isGap (s.rest.drop 1)

end AlertFlow.Yaml
