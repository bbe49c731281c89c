import GeoReplication.Config
import GeoReplication.Program

/-!
# Health — is this installation fit to replicate

A check answers with diagnostics, none of them meaning healthy, and says how far the database trails
the primary.  `HealthCheck.localTo` looks at the database of the installation and at how it is
registered.
-/

namespace GeoReplication

/-- How health is found out. -/
structure HealthCheck where
  /-- the diagnostics of checks by name, a line each -/
  process : List String → Program String
  /-- seconds behind the primary, if known -/
  lag : Program (Option Int)

namespace Health

/-- What is wrong with the node registered for this installation. -/
def nodeFailures (c : Config) (n : Node) : List String :=
  if n.isSecondary then
    (if c.databaseConfigured then [] else ["Geo database is not configured"]) ++
      (if n.enabled then [] else ["Geo node is disabled"])
  else []

/-- What is wrong with the cursor of a node. -/
def logFailures (n : Node) : Program (List String) := do
  let cursor ← (Program.call (.getCursor n.id)).attempt
  let last ← (Program.call .lastEvent).attempt
  match cursor, last with
  | .ok (some cursor), .ok last =>
    let lastId := (last.map (·.id)).getD 0
    if lastId < cursor.eventId then
      pure ["Event log cursor (" ++ Text.decimal cursor.eventId ++ ") is ahead of the event log ("
        ++ Text.decimal lastId ++ ")"]
    else pure []
  | .error e, _ => pure ["Could not read the event log: " ++ e.message]
  | _, .error e => pure ["Could not read the event log: " ++ e.message]
  | .ok none, .ok _ => pure []

/-- Everything that keeps this installation from replicating. -/
def failures (c : Config) (nodeUrl : String) : Program (List String) := do
  match ← (Program.call .ping).attempt with
  | .error e => pure ["Database is not reachable: " ++ e.message]
  | .ok () =>
    match ← (Program.call (.findNodeByUrl nodeUrl)).attempt with
    | .error e => pure ["Could not look up the current node: " ++ e.message]
    | .ok none => pure ["This installation (" ++ nodeUrl ++ ") is not registered as a Geo node"]
    | .ok (some n) => return nodeFailures c n ++ (← logFailures n)

/-- The diagnostics of checks by name. -/
def process (c : Config) (nodeUrl : String) : List String → Program (List String)
  | [] => pure []
  | check :: checks => do
    if check = "geo" then
      let found ← failures c nodeUrl
      return found ++ (← process c nodeUrl checks)
    else Program.fail (.badRequest ("unknown health check: " ++ check))

/-- Seconds since the last heartbeat, none if there never was one. -/
def lag : Program (Option Int) := do
  match ← Program.call .lastHeartbeat with
  | none => pure none
  | some beat => return some (max 0 ((← Program.clock).secondsSince beat))

end Health

namespace HealthCheck

/-- The check of the installation itself. -/
def localTo (c : Config) (nodeUrl : String) : HealthCheck where
  process checks := do return Text.joinWith "\n" (← Health.process c nodeUrl checks)
  lag := Health.lag

end HealthCheck

end GeoReplication
