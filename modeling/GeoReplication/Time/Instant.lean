import GeoReplication.Time.Civil

/-!
# Time/Instant — points in time

An instant is a count of seconds since the start of 1970 and the nanoseconds since then; a leap
second is written as the second before it with a thousand million nanoseconds or more.  Instants are
ordered by seconds, then nanoseconds.  Durations are whole milliseconds.
-/

namespace GeoReplication.Time

/-- Nanoseconds of a second. -/
def nanosPerSecond : Nat := 1000000000

/-- Seconds of a day. -/
def secondsPerDay : Int := 86400

/-- A point in time, in UTC. -/
structure Instant where
  second : Int
  nanos : Nat
deriving DecidableEq, Repr, Inhabited

namespace Instant

instance : LT Instant := ⟨fun a b => a.second < b.second ∨ a.second = b.second ∧ a.nanos < b.nanos⟩

instance : LE Instant := ⟨fun a b => a.second < b.second ∨ a.second = b.second ∧ a.nanos ≤ b.nanos⟩

instance (a b : Instant) : Decidable (a < b) :=
  inferInstanceAs (Decidable (a.second < b.second ∨ a.second = b.second ∧ a.nanos < b.nanos))

instance (a b : Instant) : Decidable (a ≤ b) :=
  inferInstanceAs (Decidable (a.second < b.second ∨ a.second = b.second ∧ a.nanos ≤ b.nanos))

theorem lt_iff {a b : Instant} :
    a < b ↔ a.second < b.second ∨ a.second = b.second ∧ a.nanos < b.nanos := Iff.rfl

theorem le_iff {a b : Instant} :
    a ≤ b ↔ a.second < b.second ∨ a.second = b.second ∧ a.nanos ≤ b.nanos := Iff.rfl

/-- The start of 1970. -/
def epoch : Instant := ⟨0, 0⟩

/-- The instant `count` nanoseconds after the start of 1970. -/
def ofNanos (count : Int) : Instant :=
  ⟨count / nanosPerSecond, (count % nanosPerSecond).toNat⟩

/-- No leap second: the nanoseconds stay below a second. -/
def IsPlain (t : Instant) : Prop := t.nanos < nanosPerSecond

/-- The instant without what is finer than a microsecond. -/
def toMicros (t : Instant) : Instant := ⟨t.second, t.nanos / 1000 * 1000⟩

/-- The calendar date. -/
def date (t : Instant) : Date := Date.ofCount (t.second / secondsPerDay)

/-- Seconds since midnight. -/
def ofDay (t : Instant) : Nat := (t.second % secondsPerDay).toNat

/-- The last second that can be counted, at the end of year 262142. -/
def lastSecond : Int := 8210266876799

/-- The first second that can be counted, at the start of year −262143. -/
def firstSecond : Int := -8334601228800

/-- The instant `millis` later. -/
def addMillis (t : Instant) (millis : Nat) : Instant :=
  let nanos := t.nanos + millis % 1000 * 1000000
  ⟨t.second + (millis / 1000 : Nat) + (nanos / nanosPerSecond : Nat), nanos % nanosPerSecond⟩

/-- The instant `millis` later, unless that lies beyond the last year that can be counted. -/
def addMillis? (t : Instant) (millis : Nat) : Option Instant :=
  let later := t.addMillis millis
  if later.second ≤ lastSecond then some later else none

/-- Whole seconds from `earlier` to `t`, what is left over dropped. -/
def secondsSince (t earlier : Instant) : Int :=
  ((t.second - earlier.second) * nanosPerSecond + ((t.nanos : Int) - earlier.nanos)).tdiv
    nanosPerSecond

end Instant

end GeoReplication.Time
