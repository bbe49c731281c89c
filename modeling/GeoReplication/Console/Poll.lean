import GeoReplication.Api.Routes
import GeoReplication.Console.StatusText
import GeoReplication.Json.Writer

/-!
# Console/Poll — asking an installation for its status

The status is asked for over the interface and shown.  An answer that is none is told in its own
words, or by its status.
-/

namespace GeoReplication.Console

open GeoReplication.Http

/-- What a run prints and how it ends. -/
structure Outcome where
  code : Nat
  out : String
  err : String
deriving DecidableEq, Repr

namespace Outcome

/-- A run that succeeded. -/
def success (out : String) : Outcome := ⟨0, out, ""⟩

/-- A run that ended with a message. -/
def failure (out message : String) : Outcome := ⟨1, out, "Error: " ++ message ++ "\n"⟩

/-- A run that was never begun. -/
def misuse : Outcome := ⟨2, "", "Usage: geosync <admin|serve|status> [options]\n"⟩

end Outcome

namespace Poll

/-- Where the status is asked for. -/
def path : String := "/api/v1/geo/status"

/-- The request. -/
def request : Request := ⟨"GET", Target.ofText path, none, ""⟩

/-- The words that go with a status. -/
def reason : Nat → String
  | 400 => "Bad Request"
  | 404 => "Not Found"
  | 405 => "Method Not Allowed"
  | 409 => "Conflict"
  | 415 => "Unsupported Media Type"
  | 422 => "Unprocessable Entity"
  | 500 => "Internal Server Error"
  | _ => "Unknown"

/-- What a refusal says. -/
def refusalText (r : Response) : String :=
  match r.body with
  | .json (.object members) =>
    match members.lookup "error" with
    | some (.string message) => message
    | _ => Text.decimal r.status ++ " " ++ reason r.status
  | _ => Text.decimal r.status ++ " " ++ reason r.status

/-- The status in an answer, or what is told instead. -/
def read (r : Response) : Except String NodeStatus :=
  if 200 ≤ r.status ∧ r.status < 300 then
    match r.body with
    | .json body =>
      match Json.decode NodeStatus.record.read body.text with
      | .ok s => .ok s
      | .error _ => .error "error decoding response body"
    | _ => .error "error decoding response body"
  else .error (refusalText r)

/-- What a run prints for an answer. -/
def outcome (r : Response) : Outcome :=
  match read r with
  | .ok s => .success (StatusText.render s)
  | .error message => .failure "" message

end Poll

end GeoReplication.Console
