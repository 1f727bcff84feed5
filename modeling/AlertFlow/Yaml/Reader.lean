import AlertFlow.Yaml.Scalar

/-!
Reading a settings file. Indentation makes blocks: the members of a table begin in one column, and
what belongs to a member is indented further, except that the dashes of a list may stand in the
column of the member they belong to. Inside brackets and braces indentation has no meaning. A name
must not be given twice in one table, and a file must not hold two documents.

Each function answers nothing where the text is malformed. Their fuel is spent one unit a call;
every round of calls uses up at least one character, so that four units a character suffice.
-/
namespace AlertFlow.Yaml

/-- A list or a table in brackets. -/
def closedLeaf (value : Setting) (spot : Spot) : Leaf :=
  { value, key? := none, isClosed := true, isMultiline := false, spot }

/-- Adds a member in front of others; its name must be new. -/
def addMember? (name : String) (value : Setting) (members : Setting.Members) :
    Option Setting.Members :=
  if (members.get? name).isSome then none else some ((name, value) :: members)

/-! ## Inside brackets -/

/-- The way to the next token inside brackets. -/
def flowGap? (floor : Nat) (s : Spot) : Option Gap :=
  let g := s.skip
  if !g.isNewLine || g.spot.rest.isEmpty || isOnGround floor true g.spot then some g else none

/-- The place behind the colon, if what was read is the name of a member. -/
def behindColon? (floor : Nat) (leaf : Leaf) : Option Spot := do
  let g ← flowGap? floor leaf.spot
  match g.spot.rest with
  | ':' :: cs =>
    let isAdjacent := leaf.isClosed && !g.isNewLine && g.spot.column = leaf.spot.column
    if isMarkBehind true cs || isAdjacent then some (g.spot.advance 1) else none
  | _ => none

mutual

def flowNode? : (fuel floor : Nat) → Spot → Option Leaf
  | 0, _, _ => none
  | fuel + 1, floor, s =>
    match s.rest with
    | '[' :: _ => do
      let (items, s) ← flowItems? fuel floor (s.advance 1)
      return closedLeaf (.list items) s
    | '\x7b' :: _ => do
      let (members, s) ← flowMembers? fuel floor (s.advance 1)
      return closedLeaf (.table members) s
    | _ => scalar? true floor s

/-- What follows a colon inside brackets: a value, or nothing in front of a comma or bracket. -/
def flowValue? : (fuel floor : Nat) → Spot → Option (Setting × Spot)
  | 0, _, _ => none
  | fuel + 1, floor, s => do
    let g ← flowGap? floor s
    match g.spot.rest with
    | [] => none
    | c :: _ =>
      if c = ',' ∨ c = ']' ∨ c = '\x7d' then some (.null, s)
      else
        let leaf ← flowNode? fuel floor g.spot
        return (leaf.value, leaf.spot)

/-- The items of a list in brackets, up to the bracket. An item with a colon is a table of one. -/
def flowItems? : (fuel floor : Nat) → Spot → Option (List Setting × Spot)
  | 0, _, _ => none
  | fuel + 1, floor, s => do
    let g ← flowGap? floor s
    match g.spot.rest with
    | ']' :: _ => some ([], g.spot.advance 1)
    | _ =>
      let leaf ← flowNode? fuel floor g.spot
      let (item, s) ←
        match behindColon? floor leaf with
        | some s => do
          let key ← leaf.key?
          let (value, s) ← flowValue? fuel floor s
          some (Setting.table [(key, value)], s)
        | none => some (leaf.value, leaf.spot)
      let g ← flowGap? floor s
      match g.spot.rest with
      | ',' :: _ => do
        let (more, s) ← flowItems? fuel floor (g.spot.advance 1)
        return (item :: more, s)
      | ']' :: _ => some ([item], g.spot.advance 1)
      | _ => none

/-- The members of a table in braces, up to the brace. A name alone has no value. -/
def flowMembers? : (fuel floor : Nat) → Spot → Option (Setting.Members × Spot)
  | 0, _, _ => none
  | fuel + 1, floor, s => do
    let g ← flowGap? floor s
    match g.spot.rest with
    | '\x7d' :: _ => some ([], g.spot.advance 1)
    | _ =>
      let leaf ← flowNode? fuel floor g.spot
      let key ← leaf.key?
      let (value, s) ←
        match behindColon? floor leaf with
        | some s => flowValue? fuel floor s
        | none => some (Setting.null, leaf.spot)
      let g ← flowGap? floor s
      match g.spot.rest with
      | ',' :: _ => do
        let (more, s) ← flowMembers? fuel floor (g.spot.advance 1)
        return (← addMember? key value more, s)
      | '\x7d' :: _ => some ([(key, value)], g.spot.advance 1)
      | _ => none

end

/-! ## Blocks -/

/-- The place behind the colon on the same line, if a member of a block was begun. -/
def memberValue? (leaf : Leaf) : Option Spot :=
  let blanks := leaf.spot.rest.takeWhile isBlankChar
  let s := leaf.spot.advance blanks.length
  match s.rest with
  | ':' :: cs => if isGap cs then some (s.advance 1) else none
  | _ => none

/-- A value on its own: in brackets, in quotes or plain. -/
def leaf? (fuel floor : Nat) (s : Spot) : Option Leaf :=
  match s.rest with
  | '[' :: _ => flowNode? fuel floor s
  | '\x7b' :: _ => flowNode? fuel floor s
  | _ => scalar? false floor s

/-- The name of a member of a block, which has to stand on one line. -/
def memberName? (leaf : Leaf) : Option String := if leaf.isMultiline then none else leaf.key?

mutual

/-- A value that begins at a token. Where a line has begun with something else already, no block may
begin on it. -/
def blockNode? : (fuel floor : Nat) → (mayNest : Bool) → Spot → Option (Setting × Spot)
  | 0, _, _, _ => none
  | fuel + 1, floor, mayNest, s =>
    if s.isDash then
      if mayNest then do
        let (items, behind) ← blockItems? fuel s.column s
        return (.list items, behind)
      else none
    else do
      let leaf ← leaf? fuel floor s
      match memberValue? leaf with
      | none => some (leaf.value, leaf.spot)
      | some behind =>
        if mayNest then
          let (members, behind) ← blockMembers? fuel s.column (← memberName? leaf) behind
          return (.table members, behind)
        else none

/-- The value of a member of a table in a column. -/
def blockValue? : (fuel column : Nat) → Spot → Option (Setting × Spot)
  | 0, _, _ => none
  | fuel + 1, column, s => do
    let g ← s.next?
    if g.isEnd then some (.null, s)
    else if !g.isNewLine then blockNode? fuel (column + 1) false g.spot
    else if column < g.spot.column then blockNode? fuel (column + 1) true g.spot
    else if g.spot.column = column ∧ g.spot.isDash then
      let (items, behind) ← blockItems? fuel column g.spot
      return (.list items, behind)
    else some (.null, s)

/-- The members of a table in a column from behind the colon of one of them on. -/
def blockMembers? : (fuel column : Nat) → (key : String) → Spot → Option (Setting.Members × Spot)
  | 0, _, _, _ => none
  | fuel + 1, column, key, s => do
    let (value, s) ← blockValue? fuel column s
    let g ← s.next?
    if g.isEnd ∨ (g.isNewLine ∧ g.spot.column < column) then some ([(key, value)], s)
    else if !g.isNewLine ∨ column < g.spot.column ∨ g.spot.isDash then none
    else
      let leaf ← leaf? fuel (column + 1) g.spot
      let (more, behind) ← blockMembers? fuel column (← memberName? leaf) (← memberValue? leaf)
      return (← addMember? key value more, behind)

/-- The items of a list whose dashes are in a column, from a dash on. -/
def blockItems? : (fuel column : Nat) → Spot → Option (List Setting × Spot)
  | 0, _, _ => none
  | fuel + 1, column, s => do
    let s := s.advance 1
    let g ← s.next?
    let (item, s) ←
      if !g.isEnd ∧ (!g.isNewLine ∨ column < g.spot.column) then
        blockNode? fuel (column + 1) true g.spot
      else some (.null, s)
    let g ← s.next?
    if g.isEnd ∨ (g.isNewLine ∧ g.spot.column < column) then some ([item], s)
    else if !g.isNewLine ∨ column < g.spot.column then none
    else if g.spot.isDash then
      let (more, behind) ← blockItems? fuel column g.spot
      return (item :: more, behind)
    else some ([item], s)

end

/-! ## Documents -/

/-- Whether nothing but the mark of its end follows a document. -/
def isClosed (s : Spot) : Bool :=
  let g := s.skip
  g.spot.rest.isEmpty ||
    (g.isNewLine && g.spot.isDocumentEnd && (g.spot.advance 3).skip.spot.rest.isEmpty)

/-- The document from its first token on. -/
def document? (fuel : Nat) (g : Gap) : Option (Setting × Spot) :=
  if !g.isClear then none
  else if g.spot.isDocumentStart then do
    let s := g.spot.advance 3
    let g ← s.next?
    if g.isEnd then some (.null, s) else blockNode? fuel 0 g.isNewLine g.spot
  else blockNode? fuel 0 true g.spot

/-- A text without the byte order mark that may stand in front of it. -/
def dropOrderMark : List Char → List Char
  | '\ufeff' :: cs => cs
  | cs => cs

/-- Reads the settings of a file; one without a document has none. -/
def read? (text : String) : Option Setting := do
  let cs := unifyBreaks (dropOrderMark text.toList)
  let g := firstGap cs
  if g.spot.rest.isEmpty then some (.table [])
  else
    let (s, behind) ← document? (4 * cs.length + 4) g
    if isClosed behind then some s else none

end AlertFlow.Yaml
