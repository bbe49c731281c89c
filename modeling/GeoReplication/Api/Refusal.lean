import GeoReplication.Http.Message
import GeoReplication.Program

/-!
# Api/Refusal — errors as the interface answers them

What the caller can mend keeps its own status and wording; anything else is answered in the words of
what was being done.  A `Handler` is a program that may end in a refusal.
-/

namespace GeoReplication.Api

open GeoReplication.Http

/-- Why a request is refused. -/
structure Refusal where
  status : Nat
  message : String
deriving DecidableEq, Repr

/-- Data and error side by side, one of them null. -/
def envelope (data error : Json) : Json := .object [("data", data), ("error", error)]

namespace Refusal

/-- The refusal that answers an error met while doing what `context` says. -/
def ofError (context : String) : Error → Refusal
  | .notFound => ⟨404, "Not found"⟩
  | .alreadyExists => ⟨409, "Already exists"⟩
  | .conflict detail => ⟨409, detail⟩
  | .badRequest detail => ⟨400, (Error.badRequest detail).message⟩
  | .noMetadata detail => ⟨400, (Error.noMetadata detail).message⟩
  | .invalidQueue name => ⟨404, (Error.invalidQueue name).message⟩
  | _ => ⟨500, context⟩

/-- The refusal of what is not there. -/
def missing (message : String) : Refusal := ⟨404, message⟩

/-- The response. -/
def response (r : Refusal) : Response := ⟨r.status, .json (envelope .null (.string r.message))⟩

end Refusal

/-- A response with data. -/
def success (status : Nat) (data : Json) : Response := ⟨status, .json (envelope data .null)⟩

/-- A program that may end in a refusal. -/
abbrev Handler := ExceptT Refusal Program

namespace Handler

variable {α : Type}

/-- A program, its errors answered as met while doing what `context` says. -/
def during (context : String) (t : Program α) : Handler α := ExceptT.mk do
  match ← t.attempt with
  | .ok a => pure (.ok a)
  | .error e => pure (.error (.ofError context e))

/-- The value, or a refusal if there is none. -/
def orMissing (message : String) : Option α → Handler α
  | some a => pure a
  | none => throw (.missing message)

/-- The response, be it a refusal. -/
def response (h : Handler Response) : Program Response := do
  match ← h.run with
  | .ok r => pure r
  | .error refusal => pure refusal.response

end Handler

end GeoReplication.Api
