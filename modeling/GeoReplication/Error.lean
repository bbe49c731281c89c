import GeoReplication.Text.Decimal

/-!
# Error — why an operation is refused

`Error` lists the causes an operation can report, each with its wording in `Error.message`.  Apart
from them stand the two places where time arithmetic leaves its range: an `Overflow` ends the
operation on the spot and nothing on the way out can handle it.
-/

namespace GeoReplication

/-- A stored value that cannot be read into its field; `column` counts from 0 in the row. -/
inductive StoredValueError where
  /-- the word is none of the field's words -/
  | unknownWord (column : Nat) (word : String)
  /-- the number is out of the field's range -/
  | outOfRange (column : Nat) (number : Int)
deriving DecidableEq, Repr

/-- Why an operation is refused. -/
inductive Error where
  | database (cause : StoredValueError)
  | notFound
  | alreadyExists
  | io (detail : String)
  | json (detail : String)
  | config (detail : String)
  | badRequest (detail : String)
  | conflict (detail : String)
  | mirror (detail : String)
  | timeout (detail : String)
  | noMetadata (detail : String)
  | invalidQueue (name : String)
deriving DecidableEq, Repr

/-- Time arithmetic that leaves its range. -/
inductive Overflow where
  /-- the end of a lease lies beyond the last year that can be counted -/
  | instant
  /-- the deadline of a tick lies beyond the monotonic clock -/
  | deadline
deriving DecidableEq, Repr

/-- Why a program ended without a result. -/
inductive Failure where
  | error (e : Error)
  | overflow (o : Overflow)
deriving DecidableEq, Repr

namespace StoredValueError

/-- The wording. -/
def message : StoredValueError → String
  | unknownWord column word =>
    "Conversion error from type Text at index: " ++ Text.decimal column ++ ", unknown value '"
      ++ word ++ "'"
  | outOfRange column number =>
    "Integer " ++ Text.decimal number ++ " out of range at index " ++ Text.decimal column

end StoredValueError

namespace Error

/-- The wording. -/
def message : Error → String
  | database cause => "database error: " ++ cause.message
  | notFound => "not found"
  | alreadyExists => "already exists"
  | io detail => "io error: " ++ detail
  | json detail => "serialization error: " ++ detail
  | config detail => "invalid configuration: " ++ detail
  | badRequest detail => "bad request: " ++ detail
  | conflict detail => "conflict: " ++ detail
  | mirror detail => "mirror failed: " ++ detail
  | timeout detail => "timed out: " ++ detail
  | noMetadata detail => "no valid metadata keys in " ++ detail
  | invalidQueue name => "queue " ++ name ++ " does not exist"

/-- A row refers to a row that is not there. -/
def danglingReference : Error := badRequest "referenced record does not exist"

/-- A second primary node. -/
def secondPrimary : Error := conflict "a primary node already exists"

/-- An event appended elsewhere than on the primary. -/
def notPrimary : Error := conflict "events can only be appended on the primary"

/-- No primary node to fetch from. -/
def noPrimary : Error := config "no primary node is registered"

end Error

namespace Overflow

/-- The wording. -/
def message : Overflow → String
  | instant => "\x60DateTime + TimeDelta\x60 overflowed"
  | deadline => "overflow when adding duration to instant"

end Overflow

end GeoReplication
