import GeoReplication.Model.Status
import GeoReplication.Text.Rounded
import GeoReplication.Time.Rfc3339

/-!
# Console/StatusText — a status report to read

One line for each thing reported, its name padded to a common width.  Counts are grouped by
thousands, the lag is given in weeks down to seconds, and what is unknown says so.
-/

namespace GeoReplication.StatusText

open GeoReplication.Text GeoReplication.Time

/-- What stands for something unknown. -/
def unknown : String := "UNKNOWN"

/-- Synced and total, and the share in percent. -/
def share (synced total : Nat) (percentage : Float) : String :=
  grouped synced ++ "/" ++ grouped total ++ " (" ++ rounded 2 percentage ++ "%)"

/-- Units of time in seconds, each a multiple of the next. -/
def units : List (Nat × String) :=
  [(7 * 24 * 3600, "w"), (24 * 3600, "d"), (3600, "h"), (60, "m"), (1, "s")]

/-- A number of seconds in units, those of which there are none left out. -/
def inUnits : List (Nat × String) → Nat → List String
  | [], _ => []
  | (size, suffix) :: rest, seconds =>
    let count := seconds / size
    if 0 < count then (decimal count ++ suffix) :: inUnits rest (seconds % size)
    else inUnits rest seconds

/-- A lag. -/
def lag : Option Int → String
  | none => unknown
  | some seconds => if seconds ≤ 0 then "0s" else joinWith " " (inUnits units seconds.toNat)

/-- An event: its id, and its date if known. -/
def event : Option Int → Option Instant → String
  | some id, some date => decimal id ++ " (" ++ String.ofList (date.secondText ' ') ++ " UTC)"
  | some id, none => decimal id
  | none, _ => unknown

/-- The counts of a class. -/
def counts (c : CopyCounts) : String :=
  share c.synced c.total c.percentage ++ "  failed: " ++ grouped c.failed

/-- The width of a name. -/
def nameWidth : Nat := 24

/-- One line. -/
def line (name value : String) : String := padRight nameWidth (name ++ ":") ++ value ++ "\n"

/-- The whole report. -/
def render (s : NodeStatus) : String :=
  line "Health status" (if s.healthy then "Healthy" else "Unhealthy")
    ++ (if s.health.isEmpty then "" else line "Health" s.health)
    ++ line "Replication lag" (lag s.lag)
    ++ line "Repositories" (counts s.repositories)
    ++ line "LFS objects" (counts s.lfsObjects)
    ++ line "Attachments" (counts s.attachments)
    ++ line "Last event ID seen" (event s.lastEventId s.lastEventDate)
    ++ line "Last event processed" (event s.cursorEventId s.cursorEventDate)

end GeoReplication.StatusText
