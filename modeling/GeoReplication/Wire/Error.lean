import GeoReplication.Error
import GeoReplication.Json.Basic

/-!
# Wire/Error — errors as records

The record of an error holds a word for its kind and its wording.
-/

namespace GeoReplication

namespace Error

/-- The word for a kind of error. -/
def word : Error → String
  | database _ => "Database"
  | notFound => "NotFound"
  | alreadyExists => "AlreadyExists"
  | io _ => "Io"
  | json _ => "Json"
  | config _ => "Config"
  | badRequest _ => "BadRequest"
  | conflict _ => "Conflict"
  | mirror _ => "Mirror"
  | timeout _ => "Timeout"
  | noMetadata _ => "NoMetadata"
  | invalidQueue _ => "InvalidQueue"

/-- The error of a kind with a detail, for the kinds that are made of a text alone. -/
def ofWord? (word detail : String) : Option Error :=
  match word with
  | "NotFound" => some notFound
  | "AlreadyExists" => some alreadyExists
  | "Io" => some (io detail)
  | "Config" => some (config detail)
  | "BadRequest" => some (badRequest detail)
  | "Conflict" => some (conflict detail)
  | "Mirror" => some (mirror detail)
  | "Timeout" => some (timeout detail)
  | "NoMetadata" => some (noMetadata detail)
  | "InvalidQueue" => some (invalidQueue detail)
  | _ => none

/-- A word and a wording. -/
def recordOf (word message : String) : Json :=
  .object [("error", .string word), ("message", .string message)]

/-- The record. -/
def asRecord (e : Error) : Json := recordOf e.word e.message

end Error

namespace Failure

/-- The record. -/
def json : Failure → Json
  | error e => e.asRecord
  | overflow o => Error.recordOf "panic" o.message

end Failure

end GeoReplication
