import GeoReplication.Json.Decode
import GeoReplication.Json.Writer

/-!
# Json/Bits — floats by their bits

Where a float has to come through exactly it is given as the sixteen hexadecimal digits of its bits,
the most significant first.
-/

namespace GeoReplication.Json

/-- The digits of the bits of a float. -/
def floatBits (x : Float) : String :=
  let bits := x.toBits.toNat
  String.ofList ((List.range 16).map fun i => hexDigit (bits / Nat.pow 16 (15 - i)))

mutual

/-- A value with all its floats given by their bits. -/
def withFloatBits : Json → Json
  | .null => .null
  | .bool b => .bool b
  | .number (.whole n) => .number (.whole n)
  | .number (.real x) => .object [("f64", .string (floatBits x))]
  | .string s => .string s
  | .array items => .array (itemsWithFloatBits items)
  | .object members => .object (membersWithFloatBits members)

/-- The same for the items of an array. -/
def itemsWithFloatBits : List Json → List Json
  | [] => []
  | j :: js => withFloatBits j :: itemsWithFloatBits js

/-- The same for the members of an object. -/
def membersWithFloatBits : List (String × Json) → List (String × Json)
  | [] => []
  | (name, j) :: rest => (name, withFloatBits j) :: membersWithFloatBits rest

end

/-- A float given by its bits. -/
def Doc.asFloatBits : Decoder Float
  | .string s =>
    if s.length = 16 then
      match s.toList.mapM hexValue? with
      | some digits => .ok (Float.ofBits (digits.foldl (fun n d => n * 16 + d) 0).toUInt64)
      | none => .error .mismatch
    else .error .mismatch
  | d => .error d.unwanted

end GeoReplication.Json
