import GeoReplication.Error
import GeoReplication.Time.Instant

/-!
# JobQueue — projects waiting to be copied

A queue holds pending jobs in order and the projects whose jobs run.  A project that is pending or
running is not taken in again.  `Queues.dropJobs` removes pending jobs by project, node or both, and
gives up when its time is over.
-/

namespace GeoReplication

open GeoReplication.Time

/-- One attempt to copy a project to a node. -/
structure Job where
  projectId : Int
  nodeId : Int
  scheduledAt : Instant
deriving DecidableEq, Repr

/-- Pending and running jobs; of the running ones only the project counts. -/
structure JobQueue where
  pending : List Job
  running : List Int
deriving DecidableEq, Repr

namespace JobQueue

/-- Nothing pending, nothing running. -/
def empty : JobQueue := ⟨[], []⟩

/-- The number of pending and running jobs. -/
def inFlight (q : JobQueue) : Nat := q.pending.length + q.running.length

/-- The project is pending or running. -/
def isScheduled (q : JobQueue) (projectId : Int) : Bool :=
  q.running.contains projectId || q.pending.any fun j => j.projectId == projectId

/-- A job more at the end, unless its project is pending or running; says whether it was taken in.
-/
def push (q : JobQueue) (job : Job) : Bool × JobQueue :=
  if q.isScheduled job.projectId then (false, q)
  else (true, { q with pending := q.pending ++ [job] })

/-- The first pending job, which now runs. -/
def take (q : JobQueue) : Option Job × JobQueue :=
  match q.pending with
  | [] => (none, q)
  | job :: jobs =>
    (some job, ⟨jobs,
      if q.running.contains job.projectId then q.running else q.running ++ [job.projectId]⟩)

/-- The job of a project has ended. -/
def finish (q : JobQueue) (projectId : Int) : JobQueue :=
  { q with running := q.running.filter (· ≠ projectId) }

end JobQueue

/-- Which jobs to drop: those of a project, of a node, or of both. -/
structure JobFilter where
  projectId : Option Int
  nodeId : Option Int
deriving DecidableEq, Repr

namespace JobFilter

/-- The job is one to drop. -/
def admits (f : JobFilter) (j : Job) : Bool :=
  f.projectId.all (· == j.projectId) && f.nodeId.all (· == j.nodeId)

/-- What can be asked for. -/
def keys : List String := ["project", "node"]

/-- Reads the keys that can be asked for and skips the others; the first value that is no id is
refused. -/
def read : JobFilter → List (String × String) → Except Error JobFilter
  | f, [] => .ok f
  | f, (key, value) :: rest =>
    if keys.contains key then
      match Text.id? value.toList with
      | none => .error (.badRequest (key ++ " must be an integer id"))
      | some id =>
        read (if key = "project" then { f with projectId := some id }
          else { f with nodeId := some id }) rest
    else read f rest

/-- The filter that metadata asks for; at least one key has to be one that can be asked for. -/
def ofMetadata (metadata : List (String × String)) : Except Error JobFilter := do
  let f ← read ⟨none, none⟩ metadata
  if f.projectId.isNone && f.nodeId.isNone then
    let given := (metadata.map Prod.fst).mergeSort fun a b => decide (a ≤ b)
    throw (.noMetadata ("\x7b" ++ Text.joinWith ", " given ++ "\x7d, expected one of "
      ++ Text.joinWith ", " keys))
  return f

end JobFilter

/-- What became of a queue from which jobs were dropped. -/
structure DropReport where
  /-- every pending job was looked at -/
  completed : Bool
  deletedJobs : Nat
  queueSize : Nat
deriving DecidableEq, Repr

namespace JobQueue

/-- Jobs without those that `f` admits, looked at one by one until the time is over; how many went,
and whether all were looked at. `elapsed` gives the time passed before each look. -/
def sift (f : JobFilter) (timeout : Nat) : (elapsed : Nat → Nat) → List Job → List Job × Nat × Bool
  | _, [] => ([], 0, true)
  | elapsed, j :: js =>
    if timeout ≤ elapsed 0 then (j :: js, 0, false)
    else
      let (kept, deleted, completed) := sift f timeout (fun i => elapsed (i + 1)) js
      if f.admits j then (kept, deleted + 1, completed) else (j :: kept, deleted, completed)

/-- The queue without the pending jobs that `f` admits. -/
def drop (q : JobQueue) (f : JobFilter) (timeout : Nat) (elapsed : Nat → Nat) :
    DropReport × JobQueue :=
  let (kept, deleted, completed) := sift f timeout elapsed q.pending
  (⟨completed, deleted, kept.length⟩, { q with pending := kept })

end JobQueue

/-- Queues by name. -/
abbrev Queues := List (String × JobQueue)

namespace Queues

/-- The queue of a name. -/
def get? (qs : Queues) (name : String) : Option JobQueue := qs.lookup name

/-- The queues with that of a name replaced. -/
def set (qs : Queues) (name : String) (q : JobQueue) : Queues :=
  qs.map fun (n, old) => (n, if n = name then q else old)

/-- Drops the pending jobs of a queue that metadata asks for. -/
def dropJobs (qs : Queues) (name : String) (metadata : List (String × String)) (timeout : Nat)
    (elapsed : Nat → Nat) : Except Error DropReport × Queues :=
  match JobFilter.ofMetadata metadata with
  | .error e => (.error e, qs)
  | .ok f =>
    match qs.get? name with
    | none => (.error (.invalidQueue name), qs)
    | some q =>
      let (report, q) := q.drop f timeout elapsed
      (.ok report, qs.set name q)

end Queues

end GeoReplication
