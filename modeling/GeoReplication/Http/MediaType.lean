import GeoReplication.Text.Scan

/-!
# Http/MediaType — is a body said to be JSON

A media type is a type and a subtype, with parameters behind.  The types that stand for JSON are
`application/json` and those of the type `application` whose subtype has `json` in front of its last
plus sign or behind it.
-/

namespace GeoReplication.Http

open GeoReplication.Text

/-- The characters of names and of values without quotes. -/
def isTokenChar (c : Char) : Bool := c.isAlphanum || "!#$%&*+-.^_\x60|~".toList.contains c
  || c.toNat == 0x27

/-- The characters of values in quotes. -/
def isQuotedChar (c : Char) : Bool := 0x20 ≤ c.toNat && c.toNat ≤ 0x7E

/-- A nonempty token and what follows it. -/
def token? (text : List Char) : Option (List Char × List Char) :=
  let name := text.takeWhile isTokenChar
  if name.isEmpty then none else some (name, text.dropWhile isTokenChar)

/-- What follows the value of a parameter. A value in quotes has a first character, whatever it is,
and ends at the next quote. -/
def dropValue? (text : List Char) : Option (List Char) :=
  match text with
  | '"' :: first :: rest =>
    if !isQuotedChar first then none
    else match rest.dropWhile fun c => isQuotedChar c && c != '"' with
      | '"' :: rest => some (rest.dropWhile (· == ' '))
      | _ => none
  | [] => some []
  | _ => (token? text).map Prod.snd

/-- What follows a parameter and its semicolon. -/
def dropParameter? (text : List Char) : Option (List Char) := do
  let (_, rest) ← token? (text.dropWhile (· == ' '))
  match rest with
  | '=' :: rest =>
    match ← dropValue? rest with
    | [] => some []
    | ';' :: rest => some rest
    | _ => none
  | _ => none

/-- The text is a list of parameters; there are at most `limit` of them. -/
def areParameters : (limit : Nat) → List Char → Bool
  | 0, text => text.isEmpty
  | limit + 1, text =>
    if (text.dropWhile (· == ' ')).isEmpty then true
    else match dropParameter? text with
      | none => false
      | some rest => areParameters limit rest

/-- Type, subtype and parameters of a media type. -/
def mediaType? (text : List Char) : Option (List Char × List Char) := do
  let (type, rest) ← token? text
  match rest with
  | '/' :: rest =>
    let (subtype, rest) ← token? rest
    match rest with
    | [] => some (type, subtype)
    | c :: rest =>
      if (c = ';' || c = ' ') && areParameters (rest.length + 1) rest then some (type, subtype)
      else none
  | _ => none

/-- A subtype stands for JSON: it is the word itself, or has it on one side of its last plus sign. A
plus sign in front divides nothing. -/
def namesJson : List Char → Bool
  | [] => false
  | first :: rest =>
    let json := "json".toList
    match splitLast? '+' rest with
    | none => first :: rest == json
    | some (before, after) => first :: before == json || after == json

/-- The content of this type is JSON. -/
def isJson (contentType : String) : Bool :=
  match mediaType? (lower contentType.toList) with
  | some (type, subtype) => type == "application".toList && namesJson subtype
  | none => false

end GeoReplication.Http
