import GeoReplication.Url.Escaped

/-!
# Http/Target — what a request is aimed at

A target is a path and a query.  The path is cut into segments before anything is decoded, so an
escaped slash belongs to its segment.  A query is a list of names and values written as a form: a
plus sign is a blank, and of a repeated name the last value counts.
-/

namespace GeoReplication.Http

open GeoReplication.Text

/-- A segment of a path as text. -/
def segmentText? (segment : List Char) : Option String :=
  (Escaped.decode? segment).map String.ofList

/-- A name or value of a form as text. -/
def formText (part : List Char) : String :=
  String.ofList (Escaped.decodeLossy (part.map fun c => if c = '+' then ' ' else c))

/-- One name and value of a form; without an equals sign the value is empty. -/
def formPair (part : List Char) : String × String :=
  let (name, value) := (splitOnce? ['='] part).getD (part, [])
  (formText name, formText value)

/-- Names and values with one more, which takes the place of an earlier one of its name. -/
def setValue (name value : String) : List (String × String) → List (String × String)
  | [] => [(name, value)]
  | (n, v) :: rest => if n = name then (n, value) :: rest else (n, v) :: setValue name value rest

/-- The names and values of a form. -/
def formValues (query : List Char) : List (String × String) :=
  (((splitAll '&' query).filter fun part => !part.isEmpty).map formPair).foldl
    (fun values (name, value) => setValue name value values) []

/-- What a request is aimed at. -/
structure Target where
  /-- what stands between the slashes of the path, escaped -/
  segments : List (List Char)
  query : List (String × String)
deriving DecidableEq, Repr

/-- The target of a written one; what follows a number sign is left out. -/
def Target.ofText (text : String) : Target :=
  let text := text.toList.takeWhile (· ≠ '#')
  let (path, query) := (splitOnce? ['?'] text).getD (text, [])
  ⟨splitAll '/' path, formValues query⟩

end GeoReplication.Http
