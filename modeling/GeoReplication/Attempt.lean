import GeoReplication.Config
import GeoReplication.Program

/-!
# Attempt — one attempt to copy a project

The repository is fetched first, then the wiki if the project has one and wikis are copied.  The
outcome of each is recorded by itself.  A repository that was copied loses its measured size.
-/

namespace GeoReplication.Attempt

/-- How an attempt ended, for the parts that were attempted. -/
structure Outcome where
  repository : SyncState
  wiki : Option SyncState
deriving DecidableEq, Repr

/-- The longest text of a failure, in characters. -/
def maxFailureLength : Nat := 255

/-- The beginning of a text. -/
def truncate (text : String) : String := String.ofList (text.toList.take maxFailureLength)

/-- Fetches one part and records how it went. -/
def part (n : Node) (p : Project) (primaryUrl : String) (part : Part) : Program SyncState := do
  let started ← Program.clock
  match ← (Program.fetch primaryUrl p part).attempt with
  | .ok () =>
    let _ ← Program.call (.recordSyncSuccess n.id p.id part started)
    return .synced
  | .error e =>
    let _ ← Program.call (.recordSyncFailure n.id p.id part (truncate e.message))
    return .syncFailed

/-- One attempt. -/
def run (f : Features) (nodeId projectId : Int) : Program Outcome := do
  let n ← Program.orElse .notFound (← Program.call (.getNode nodeId))
  let p ← Program.orElse .notFound (← Program.call (.getProject projectId))
  let primary ← Program.orElse .noPrimary (← Program.call .getPrimaryNode)
  let repository ← part n p primary.url .repository
  let wiki ←
    if p.wikiEnabled && f.wikiSync then some <$> part n p primary.url .wiki else pure none
  if repository = .synced then Program.call (.expireRepositoryCache p.id)
  return ⟨repository, wiki⟩

/-- The job of a queue that has been taken: an attempt, whatever comes of it. -/
def perform (f : Features) (queue : String) (job : Job) : Program Unit := do
  let _ ← (run f job.nodeId job.projectId).attempt
  Program.queue queue (.finish job.projectId)

/-- Takes and performs up to `limit` jobs of a queue; says how many. -/
def drain (f : Features) (queue : String) : (limit : Nat) → Program Nat
  | 0 => pure 0
  | limit + 1 => do
    match ← Program.queue queue .take with
    | none => pure 0
    | some job =>
      perform f queue job
      return (← drain f queue limit) + 1

end GeoReplication.Attempt
