/-!
# Console/PollPace — how long to wait before the next poll

While someone is watching each wait is longer than the one before, up to a limit.  While nobody is,
the wait is a fixed one, and the next watcher begins with the shortest again.  All durations are in
milliseconds.
-/

namespace GeoReplication

/-- The pace of polling and the wait that is due. -/
structure PollPace where
  starting : Nat
  max : Nat
  hidden : Nat
  increment : Nat
  /-- the next wait while someone is watching -/
  current : Nat
deriving DecidableEq, Repr

namespace PollPace

/-- A pace that begins with the shortest wait. -/
def start (starting max hidden increment : Nat) : PollPace :=
  ⟨starting, max, hidden, increment, starting⟩

/-- The pace at which the status of a node is polled. -/
def nodeStatus : PollPace := start 30000 120000 240000 15000

/-- The wait before the next poll, and the pace afterwards. -/
def next (p : PollPace) (isHidden : Bool) : Nat × PollPace :=
  if isHidden then (p.hidden, { p with current := p.starting })
  else (p.current, { p with current := min (p.current + p.increment) p.max })

/-- The waits before polls, hidden or not, and the pace after each. -/
def waits : PollPace → List Bool → List (Nat × PollPace)
  | _, [] => []
  | p, isHidden :: polls => p.next isHidden :: waits (p.next isHidden).2 polls

end PollPace

end GeoReplication
