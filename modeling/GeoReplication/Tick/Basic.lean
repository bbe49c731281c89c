import GeoReplication.Config
import GeoReplication.Lease
import GeoReplication.Tick.Interleave

/-!
# Tick/Basic — which projects a secondary copies next

A tick runs on an enabled secondary, under a lease that it renews before every step.  Each step
looks up candidates, picks as many as there is room for, one of each category in turn, and puts a
job for each into the queue.  It ends when there is no room or no candidate left, when its time is
over or when the lease is lost, and remembers for every category where it left off.

The pause between two steps (`Config.pacingMillis`) is no effect of the program: it only lets time
pass and others act, as they may before any effect.
-/

namespace GeoReplication

open GeoReplication.Store

/-- Why a tick did nothing. -/
inductive SkipReason where
  | databaseNotConfigured
  | notSecondary
  | nodeDisabled
  | noPrimary
  | leaseTaken
deriving DecidableEq, Repr

namespace SkipReason

/-- The word for a reason. -/
def word : SkipReason → String
  | databaseNotConfigured => "geo_database_not_configured"
  | notSecondary => "not_secondary"
  | nodeDisabled => "node_disabled"
  | noPrimary => "no_primary"
  | leaseTaken => "lease_taken"

end SkipReason

/-- What a tick did. -/
structure TickReport where
  skipped : Option SkipReason
  /-- the projects that got a job, in order -/
  scheduled : List Int
  /-- time or lease ran out before the candidates did -/
  incomplete : Bool
deriving DecidableEq, Repr

/-- Where the last tick left off, for every node and category. -/
abbrev Rotation := Table (Int × Category) Int

/-- What a tick needs to know. -/
structure Scheduler where
  config : Config
  /-- storages that can be reached -/
  storages : List String
  lease : Lease
  /-- the queue that takes the jobs -/
  queue : String

namespace Scheduler

/-- What the lease of a node is called. -/
def leaseKey (n : Node) : String := "geo_repository_sync_worker:" ++ Text.decimal n.id

/-- The categories that are looked at, in the order of their turns. -/
def categories (f : Features) : List Category :=
  [.neverSynced, .failed] ++ if f.dirtyRefresh then [.dirty] else []

/-- The sources of a node, each beginning where the last tick left off. -/
def sources (f : Features) (n : Node) (r : Rotation) : List Source :=
  (categories f).map fun c => Source.begin c ((r.get? (n.id, c)).getD 0)

/-- The rotation with the places where the sources stand. -/
def remember (n : Node) (ss : List Source) (r : Rotation) : Rotation :=
  ss.foldl (fun r s => r.upsert (n.id, s.category) s.resumeAfter fun _ => s.resumeAfter) r

/-- Which projects are candidates for a node. -/
def filter (sched : Scheduler) (n : Node) : CandidateFilter where
  scope := Scope.of n sched.config.features.namespaceRestrictions
  storages := sched.storages
  includeWikis := sched.config.features.wikiSync

/-- The number of candidates looked up at a time. -/
def batchSize (sched : Scheduler) : Nat := max sched.config.batchSize 1

/-- The next page of a source, if it is due; a look-up that fails ends the source. -/
def refill (sched : Scheduler) (f : CandidateFilter) (s : Source) : Program Source :=
  if s.isDue then do
    match ← (Program.call (.findCandidates s.category f s.afterId sched.batchSize)).attempt with
    | .ok page => pure (s.accept sched.batchSize page)
    | .error _ => pure s.giveUp
  else pure s

/-- The next pages of all sources. -/
def refillAll (sched : Scheduler) (f : CandidateFilter) : List Source → Program (List Source)
  | [] => pure []
  | s :: ss => do
    let s ← sched.refill f s
    let ss ← refillAll sched f ss
    pure (s :: ss)

/-- Puts a job for each project into the queue; gives those that were taken in. -/
def dispatch (sched : Scheduler) (n : Node) : List Int → Program (List Int)
  | [] => pure []
  | id :: ids => do
    let now ← Program.clock
    let taken ← Program.queue sched.queue (.push ⟨id, n.id, now⟩)
    let rest ← dispatch sched n ids
    pure (if taken then id :: rest else rest)

/-- How the steps of a tick came to an end. -/
inductive Ending where
  /-- no room or no candidate was left -/
  | finished
  /-- time or lease ran out -/
  | cutShort
  /-- more steps were due than were allowed -/
  | outOfSteps
deriving DecidableEq, Repr

/-- A tick under way. -/
structure Progress where
  sources : List Source
  /-- projects picked so far -/
  seen : List Int
  /-- projects that got a job so far, in order -/
  scheduled : List Int
deriving DecidableEq, Repr

/-- The lease is still held. -/
def keepsLease (sched : Scheduler) (n : Node) : Program Bool := do
  match ← (sched.lease.renew (leaseKey n) sched.config.leaseTimeoutMillis).attempt with
  | .ok held => pure held
  | .error _ => pure false

/-- The room in the queue. -/
def room (sched : Scheduler) (n : Node) : Program Nat := do
  let inFlight ← Program.queue sched.queue .inFlight
  pure (n.reposMaxCapacity.toNat - inFlight)

/-- Candidates picked and dispatched, given the sources after their look-ups. -/
def fill (sched : Scheduler) (n : Node) (capacity : Nat) (p : Progress) : Program Progress := do
  let isScheduled (id : Int) : Program Bool := Program.queue sched.queue (.isScheduled id)
  let (ss, picked) ← Source.interleave isScheduled capacity p.sources p.seen
  let taken ← sched.dispatch n picked.batch
  pure ⟨ss, picked.seen, p.scheduled ++ taken⟩

/-- At most `steps` steps, before `deadline`. -/
def steps (sched : Scheduler) (n : Node) (deadline : Nat) :
    (steps : Nat) → Progress → Program (Ending × Progress)
  | 0, p => pure (.outOfSteps, p)
  | count + 1, p => do
    let now ← Program.uptime
    if deadline ≤ now then pure (.cutShort, p)
    else if !(← sched.keepsLease n) then pure (.cutShort, p)
    else
      let capacity ← sched.room n
      if capacity = 0 then pure (.finished, p)
      else
        let ss ← sched.refillAll (sched.filter n) p.sources
        if ss.all Source.isDone then pure (.finished, { p with sources := ss })
        else
          let p ← sched.fill n capacity { p with sources := ss }
          steps sched n deadline count p

/-- The largest number of seconds a clock that never goes back can show. -/
def maxUptimeSeconds : Nat := 9223372036854775807

/-- The work of a tick that holds the lease: its report, and where it left off. -/
def schedule (sched : Scheduler) (n : Node) (r : Rotation) (limit : Nat) :
    Program (TickReport × Rotation) := do
  let now ← Program.uptime
  if maxUptimeSeconds < now / 1000 + sched.config.maxRunTimeSeconds then
    Program.failed (.overflow .deadline)
  else if sched.storages.isEmpty then pure (⟨none, [], false⟩, r)
  else
    let deadline := now + sched.config.maxRunTimeSeconds * 1000
    let (ending, p) ← sched.steps n deadline limit
      ⟨sources sched.config.features n r, [], []⟩
    pure (⟨none, p.scheduled, ending ≠ .finished⟩, remember n p.sources r)

/-- What keeps a tick from running. -/
def obstacle (sched : Scheduler) (n : Node) : Program (Option SkipReason) := do
  if !sched.config.databaseConfigured then pure (some .databaseNotConfigured)
  else if !n.isSecondary then pure (some .notSecondary)
  else if !n.enabled then pure (some .nodeDisabled)
  else if (← Program.call .getPrimaryNode).isNone then pure (some .noPrimary)
  else pure none

/-- One tick, of at most `limit` steps. -/
def tick (sched : Scheduler) (n : Node) (r : Rotation) (limit : Nat) :
    Program (TickReport × Rotation) := do
  match ← sched.obstacle n with
  | some reason => pure (⟨some reason, [], false⟩, r)
  | none =>
    if !(← sched.lease.obtain (leaseKey n) sched.config.leaseTimeoutMillis) then
      pure (⟨some .leaseTaken, [], false⟩, r)
    else
      let result ← sched.schedule n r limit
      let _ ← (sched.lease.cancel (leaseKey n)).attempt
      pure result

end Scheduler

end GeoReplication
