import GeoReplication.Json.Reader
import GeoReplication.Time.Rfc3339

/-!
# Json/Decode — records from documents

A reader of a record stops at the first thing it cannot use, in the order of the text, and says
which of two it was: the text was malformed there (`Fault.malformed`), or the value there was not
the one wanted (`Fault.mismatch`).

`RecordReader` holds the fields of a record in order.  A document for it is an object, where unknown
members are skipped, a repeated known one is refused and a missing one takes its default, or an
array of the fields in order.
-/

namespace GeoReplication.Json

open GeoReplication.Time

/-- Why a document does not give a record. -/
inductive Fault where
  /-- the text is not well formed -/
  | malformed
  /-- a well-formed value is not the one wanted -/
  | mismatch
deriving DecidableEq, Repr

/-- A reader of values. -/
abbrev Decoder (α : Type) := Doc → Except Fault α

namespace Doc

/-- The fault of a value that is of another kind than the one wanted. -/
def unwanted : Doc → Fault
  | .unreadable => .malformed
  | .broken => .malformed
  | _ => .mismatch

/-- A truth value. -/
def asBool : Decoder Bool
  | .bool b => .ok b
  | d => .error d.unwanted

/-- A whole number from `min` to `max`. -/
def asInt (min max : Int) : Decoder Int
  | .number (.whole n) => if min ≤ n ∧ n ≤ max then .ok n else .error .mismatch
  | d => .error d.unwanted

/-- A whole number without sign, up to `max`. -/
def asNat (max : Nat) (d : Doc) : Except Fault Nat := (d.asInt 0 max).map Int.toNat

/-- A 64-bit id. -/
def asId : Decoder Int := asInt Text.minId Text.maxId

/-- A binary fraction; a whole number counts as one. -/
def asFloat : Decoder Float
  | .number (.whole n) =>
    .ok (if n < 0 then -n.natAbs.toUInt64.toFloat else n.toNat.toUInt64.toFloat)
  | .number (.real x) => .ok x
  | d => .error d.unwanted

/-- A text. -/
def asString : Decoder String
  | .string s => .ok s
  | d => .error d.unwanted

/-- A point in time. -/
def asInstant : Decoder Instant
  | .string s =>
    match Instant.ofWritten? s with
    | some t => .ok t
    | none => .error .mismatch
  | d => .error d.unwanted

/-- Nothing for `null`, else the value. -/
def asOptional {α : Type} (read : Decoder α) : Decoder (Option α)
  | .null => .ok none
  | d => (read d).map some

/-- All items of an array. -/
def asList {α : Type} (read : Decoder α) : Decoder (List α)
  | .array items closed => do
    let values ← items.mapM read
    if closed then .ok values else .error .malformed
  | d => .error d.unwanted

/-- The values of an object by name, in the order of the text. -/
def asMembers {α : Type} (read : Decoder α) : Decoder (List (String × α))
  | .object members closed => do
    let values ← members.mapM fun
      | (.name k, d) => do return (k, ← read d)
      | _ => .error .malformed
    if closed then .ok values else .error .malformed
  | d => .error d.unwanted

/-- A word out of a fixed set, as a string or as `{"word": null}`. -/
def asWord {α : Type} (parse : String → Option α) : Decoder α
  | .string s => (parse s).elim (.error .mismatch) .ok
  | .object [] _ => .error .malformed
  | .object ((.other, _) :: _) _ => .error .mismatch
  | .object ((.unreadable, _) :: _) _ => .error .malformed
  | .object ((.name s, value) :: rest) closed =>
    match parse s with
    | none => .error .mismatch
    | some word =>
      match value with
      | .null => if rest.isEmpty && closed then .ok word else .error .malformed
      | d => .error d.unwanted
  | _ => .error .malformed

end Doc

/-! ## Records -/

/-- A field as the walk over a document sees it: its name, and what its value must pass. -/
structure Rule where
  name : String
  check : Doc → Except Fault Unit

/-- The fields found in a document. -/
structure Found where
  members : List (String × Doc)
  /-- the document was an array that gives the fields in order -/
  ordered : Bool

namespace Found

/-- The value found under a name. -/
def get? (f : Found) (name : String) : Option Doc := f.members.lookup name

end Found

/-- The fields of a record in order, and how the record is put together from what was found. -/
structure RecordReader (α : Type) where
  rules : List Rule
  build : Found → Except Fault α

namespace RecordReader

instance : Functor RecordReader where
  map f r := ⟨r.rules, fun found => (r.build found).map f⟩

/-- The fields of both readers, those of the first in front. -/
def seq {α β : Type} (f : RecordReader (α → β)) (r : RecordReader α) : RecordReader β :=
  ⟨f.rules ++ r.rules, fun found => do return (← f.build found) (← r.build found)⟩

instance : Seq RecordReader where
  seq f r := f.seq (r ())

/-- A field; `missing` stands in where an object lacks it, `short` where an array ends before it. -/
def fieldWith {α : Type} (name : String) (read : Decoder α) (missing short : Option α) :
    RecordReader α where
  rules := [⟨name, fun d => (read d).map fun _ => ()⟩]
  build found :=
    match found.get? name with
    | some d => read d
    | none => (if found.ordered then short else missing).elim (.error .mismatch) .ok

/-- A field that has to be there. -/
def field {α : Type} (name : String) (read : Decoder α) : RecordReader α :=
  fieldWith name read none none

/-- A field that takes `value` where it is missing. -/
def fieldOr {α : Type} (name : String) (read : Decoder α) (value : α) : RecordReader α :=
  fieldWith name read (some value) (some value)

/-- A field that may be `null` or missing from an object, but holds a place in an array. -/
def optionalField {α : Type} (name : String) (read : Decoder α) : RecordReader (Option α) :=
  fieldWith name (Doc.asOptional read) (some none) none

/-- A field that may be `null` or missing. -/
def optionalFieldOr {α : Type} (name : String) (read : Decoder α) : RecordReader (Option α) :=
  fieldWith name (Doc.asOptional read) (some none) (some none)

/-- The known members of an object in the order of the text; the first fault ends the walk. -/
def walk (rules : List Rule) : (seen : List (String × Doc)) → List (Key × Doc) →
    Except Fault (List (String × Doc))
  | seen, [] => .ok seen
  | seen, (key, value) :: rest =>
    match key with
    | .name k =>
      match rules.find? (·.name == k) with
      | none => walk rules seen rest
      | some rule => do
        if (seen.lookup k).isSome then throw .mismatch
        rule.check value
        walk rules ((k, value) :: seen) rest
    | _ => .error .malformed

/-- The items of an array as the fields in order. -/
def zipItems : List Rule → List Doc → Except Fault (List (String × Doc))
  | _, [] => .ok []
  | [], _ :: _ => .error .malformed
  | rule :: rules, d :: ds => do
    rule.check d
    return (rule.name, d) :: (← zipItems rules ds)

/-- Reads a record. -/
def read {α : Type} (r : RecordReader α) : Decoder α
  | .object members closed => do
    let found ← walk r.rules [] members
    if !closed then throw .malformed
    r.build ⟨found, false⟩
  | .array items closed => do
    let found ← zipItems r.rules (items.take r.rules.length)
    let value : Except Fault α :=
      if !closed && items.length ≤ r.rules.length then .error .malformed
      else r.build ⟨found, true⟩
    let value ← value
    if r.rules.length < items.length || !closed then .error .malformed else .ok value
  | d => .error d.unwanted

end RecordReader

/-- Reads a whole text as one value: nothing but blanks may follow it. -/
def decode {α : Type} (read : Decoder α) (text : String) : Except Fault α := do
  let document := Document.read text
  let value ← read document.value
  if document.trailing then .error .malformed else .ok value

end GeoReplication.Json
