import GeoReplication.Time.Instant

/-!
# Model/Status — the state of replication at one moment

Counts are zero where nothing is known; only the lag and the event fields tell "unknown" from zero.
-/

namespace GeoReplication

open GeoReplication.Time

/-- Copies of one class of things. -/
structure CopyCounts where
  total : Nat
  synced : Nat
  /-- share of the synced ones, in percent -/
  percentage : Float
  failed : Nat

/-- The share of `synced` in `total` in percent, zero when there is nothing to copy. -/
def syncPercentage (synced total : Nat) : Float :=
  if total = 0 then 0 else synced.toUInt64.toFloat / total.toUInt64.toFloat * 100

namespace CopyCounts

/-- Nothing to copy. -/
def empty : CopyCounts := ⟨0, 0, 0, 0⟩

/-- Counts with the share they amount to. -/
def of (total synced failed : Nat) : CopyCounts :=
  ⟨total, synced, syncPercentage synced total, failed⟩

end CopyCounts

/-- The state of replication of one node. -/
structure NodeStatus where
  healthy : Bool
  /-- what is wrong, empty when healthy -/
  health : String
  /-- seconds behind the primary database -/
  lag : Option Int
  repositories : CopyCounts
  lfsObjects : CopyCounts
  attachments : CopyCounts
  lastEventId : Option Int
  lastEventDate : Option Instant
  cursorEventId : Option Int
  cursorEventDate : Option Instant

namespace NodeStatus

/-- Nothing is known. -/
def unknown : NodeStatus := ⟨false, "", none, .empty, .empty, .empty, none, none, none, none⟩

end NodeStatus

end GeoReplication
