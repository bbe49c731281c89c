import GeoReplication.Attempt
import GeoReplication.Site.Basic
import GeoReplication.Tick.Basic

/-!
# Site/Workers — ticks, and jobs that run side by side

`Site.tick` and `Site.drain` run a tick and the jobs of a queue with as many steps as they can need.
`Site.work` runs the jobs with several workers: a job starts as soon as a worker is free and lets go
of the site only where it waits for a copy.
-/

namespace GeoReplication

/-- A job that waits for its copy to end. -/
structure Waiting where
  /-- when the copy ends -/
  wakesAt : Nat
  copying : Copying
  next : Except Failure Unit → Program Unit

namespace Program

/-- Runs a job until it waits, or to its end. -/
def advance : Program Unit → Site → Option Waiting × Site
  | done _, s => (none, s)
  | failed _, s => (none, s)
  | perform (.fetch primaryUrl p part) next, s =>
    let (c, s) := s.beginFetch primaryUrl p part
    if c.rule.delay = 0 then
      let (reply, s) := s.endFetch c
      (next reply).advance s
    else (some ⟨s.waited + c.rule.delay, c, next⟩, s)
  | perform e next, s =>
    let (reply, s) := s.perform e
    (next reply).advance s

end Program

/-- Workers on a queue. -/
structure Crew where
  /-- workers without a job -/
  idle : Nat
  /-- jobs that wait, in the order in which they began to -/
  waiting : List Waiting
  site : Site

namespace Crew

/-- A worker goes on with a job. -/
def resume (c : Crew) (job : Program Unit) : Crew :=
  match job.advance c.site with
  | (none, site) => { c with idle := c.idle + 1, site }
  | (some w, site) => { c with waiting := c.waiting ++ [w], site }

/-- The job that wakes first, and the others. -/
def first : List Waiting → Option (Waiting × List Waiting)
  | [] => none
  | w :: ws =>
    match first ws with
    | none => some (w, [])
    | some (v, rest) => if v.wakesAt < w.wakesAt then some (v, w :: rest) else some (w, ws)

/-- The copy that ends first ends, and its job goes on. -/
def wake (c : Crew) : Option Crew :=
  match first c.waiting with
  | none => none
  | some (w, rest) =>
    let (reply, site) := { c.site with waited := w.wakesAt }.endFetch w.copying
    some ({ c with waiting := rest, site }.resume (w.next reply))

/-- What happens next: an idle worker takes a job; failing that, a copy ends. -/
def step (f : Features) (queue : String) (c : Crew) : Option Crew :=
  match c.idle with
  | 0 => c.wake
  | idle + 1 =>
    match c.site.onQueue queue .take with
    | (some job, site) => some ({ c with idle, site }.resume (Attempt.perform f queue job))
    | (none, _) => c.wake

/-- Up to `limit` steps. -/
def run (f : Features) (queue : String) : (limit : Nat) → Crew → Crew
  | 0, c => c
  | limit + 1, c =>
    match c.step f queue with
    | none => c
    | some c => run f queue limit c

end Crew

namespace Site

/-- The number of pending jobs. -/
def pendingJobs (s : Site) (queue : String) : Nat :=
  ((s.queues.get? queue).getD .empty).pending.length

/-- The steps of a tick: a source takes every project at most once and goes round once. -/
def tickLimit (s : Site) : Nat := 3 * s.store.projects.rows.length + 4

/-- A tick. -/
def tick (s : Site) (sched : Scheduler) (n : Node) (r : Rotation) :
    Except Failure (TickReport × Rotation) × Site :=
  (sched.tick n r s.tickLimit).run s

/-- Runs every pending job, one after another; says how many. -/
def drain (s : Site) (f : Features) (queue : String) : Except Failure Nat × Site :=
  (Attempt.drain f queue (s.pendingJobs queue)).run s

/-- Runs every pending job with this many workers, at least one. A job is taken once and waits for
two copies at most. -/
def work (s : Site) (f : Features) (queue : String) (workers : Nat) : Site :=
  (Crew.run f queue (3 * s.pendingJobs queue) ⟨max workers 1, [], { s with waited := 0 }⟩).site

end Site

end GeoReplication
