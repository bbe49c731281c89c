import GeoReplication.Http.MediaType
import GeoReplication.Http.Target
import GeoReplication.Json.Decode

/-!
# Http/Message — requests and responses

A request carries the record that its body is read as, if its type is JSON; `Request.read` tells the
ways apart in which that fails.
-/

namespace GeoReplication.Http

open GeoReplication.Json

/-- A request. -/
structure Request where
  method : String
  target : Target
  contentType : Option String
  body : String
deriving DecidableEq, Repr

/-- The body of a response. -/
inductive Body where
  | text (s : String)
  | json (j : Json)
  /-- of the type JSON, but left out -/
  | omittedJson

/-- A response. -/
structure Response where
  status : Nat
  body : Body

namespace Response

/-- A response that is its status only. -/
def bare (status : Nat) : Response := ⟨status, .text ""⟩

/-- The response as it answers a request for the head only. -/
def withoutBody (r : Response) : Response :=
  match r.body with
  | .text _ => { r with body := .text "" }
  | _ => { r with body := .omittedJson }

end Response

/-- The body of a request as a record, or the status that refuses it. -/
def Request.read {α : Type} (r : Request) (read : Decoder α) : Except Nat α :=
  if r.contentType.any isJson then
    match Json.decode read r.body with
    | .ok a => .ok a
    | .error .malformed => .error 400
    | .error .mismatch => .error 422
  else .error 415

end GeoReplication.Http
