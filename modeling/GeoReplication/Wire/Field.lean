import GeoReplication.Json.Decode
import GeoReplication.Model.Node

/-!
# Wire/Field — times and words inside records
-/

namespace GeoReplication.Wire

open GeoReplication.Json GeoReplication.Time

/-- A point in time, with the fewest digits that lose nothing. -/
def time (t : Instant) : Json := .string t.written

/-- The smallest value of a retry count. -/
def minCount : Int := -2147483648

/-- The largest value of a retry count. -/
def maxCount : Int := 2147483647

/-- A retry count. -/
def asCount : Decoder Int := Doc.asInt minCount maxCount

/-- A port. -/
def asPort : Decoder UInt16 := fun d => (d.asNat Address.maxPort).map .ofNat

/-- A capacity. -/
def asCapacity : Decoder UInt32 := fun d => (d.asNat Node.maxCapacity).map .ofNat

/-- An unsigned 64-bit number. -/
def asUnsigned : Decoder Nat := Doc.asNat Text.maxUnsigned

end GeoReplication.Wire
