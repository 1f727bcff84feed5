/-!
Media types of request bodies: a type, a subtype that may end in a structured suffix such as
`+json`, and parameters. Letter case means nothing in type, subtype and suffix.
-/
namespace AlertFlow.MediaType

/-- A character that can stand in a type, a subtype, or the name or bare value of a parameter. -/
def isToken (c : Char) : Bool :=
  c.isAlphanum || "!#$%&\x27*+-.^_|~\x60".toList.contains c

/-- The rest behind a quoted value, whose opening quote has been read; the value may not be empty.
-/
def quotedRest? : (any : Bool) → List Char → Option (List Char)
  | _, [] => none
  | any, c :: cs =>
    if c = '"' ∧ any then some cs
    else if c.toNat ≤ 31 ∨ c = '\x7f' then none
    else quotedRest? true cs

/-- Whether the text behind a semicolon is a list of parameters. Fuel is the length of the text. -/
def areParameters : (fuel : Nat) → List Char → Bool
  | 0, cs => cs.isEmpty
  | fuel + 1, cs =>
    let cs' := cs.dropWhile (· = ' ')
    if cs.isEmpty then true
    else
      match cs'.takeWhile isToken, cs'.dropWhile isToken with
      | _ :: _, '=' :: '"' :: value =>
        match quotedRest? false value with
        | none => false
        | some rest =>
          match rest.dropWhile (· = ' ') with
          | [] => true
          | ';' :: rest => areParameters fuel rest
          | _ => false
      | _ :: _, '=' :: value =>
        match value.takeWhile isToken, value.dropWhile isToken with
        | _, [] => true
        | _ :: _, ';' :: rest => areParameters fuel rest
        | _, _ => false
      | _, _ => false

/-- The subtype without its suffix, and the suffix behind the last plus sign. -/
def splitSuffix (subtype : List Char) : List Char × Option (List Char) :=
  let suffix := (subtype.reverse.takeWhile (· ≠ '+')).reverse
  let front := subtype.take (subtype.length - suffix.length - 1)
  if suffix.length < subtype.length ∧ ¬ front.isEmpty then (front, some suffix)
  else (subtype, none)

/-- Whether a media type says that a body is JSON: `application/json`, or an application type with
the suffix `json`. -/
def isJson (text : String) : Bool :=
  let cs := text.toList
  let name := cs.takeWhile isToken
  match cs.dropWhile isToken with
  | '/' :: rest =>
    let subtype := rest.takeWhile isToken
    let parameters := rest.dropWhile isToken
    let (front, suffix) := splitSuffix (subtype.map Char.toLower)
    name.map Char.toLower = "application".toList && !subtype.isEmpty &&
      (front = "json".toList || suffix = some "json".toList) &&
      (match parameters with
        | [] => true
        | ';' :: rest => areParameters rest.length rest
        | _ => false)
  | _ => false

end AlertFlow.MediaType
