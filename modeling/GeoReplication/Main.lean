import GeoReplication.Console.Run
import GeoReplication.Store.Snapshot
import Std.Time.DateTime

/-!
# Main — the program

Reads the files that a command line speaks of into a `Disc`, has the command line carried out on it,
writes the database that it leaves, and prints what it has to say.
-/

namespace GeoReplication

open GeoReplication.Console GeoReplication.Time

/-- The current time. -/
def wallClock : IO Instant := do
  return .ofNanos (← Std.Time.Timestamp.now).toNanosecondsSinceUnixEpoch.val

/-- The text in a file, if there is such a file. -/
def readText? (path : String) : IO (Option String) := do
  match ← (IO.FS.readFile path).toBaseIO with
  | .ok text => return some text
  | .error _ => return none

/-- The disc with what lies at the paths of a command. -/
def loadDisc (c : Command) : IO Disc := do
  let mut disc := Disc.empty
  if let some path := c.databasePath? then
    if let some s := (← readText? path).bind Store.ofSnapshot? then
      disc := disc.setDatabase path s
  if let some path := c.configPath? then
    if let some text ← readText? path then
      disc := disc.setText path text
  return disc

/-- Writes the database of a command, if there is one now. -/
def saveDisc (c : Command) (disc : Disc) : IO Unit := do
  if let some path := c.databasePath? then
    if let some s := disc.database? path then
      if let some folder := c.newFolder? then IO.FS.createDirAll folder
      IO.FS.writeFile path s.snapshot

end GeoReplication

open GeoReplication GeoReplication.Console

/-- Carries out a command line on the files of this machine. -/
def main (args : List String) : IO UInt32 := do
  let now ← wallClock
  let command := Command.parse? args
  let disc ← command.elim (pure .empty) loadDisc
  let (outcome, after) := Console.run now disc args
  if let some c := command then saveDisc c after
  IO.print outcome.out
  IO.eprint outcome.err
  return outcome.code.toUInt32
