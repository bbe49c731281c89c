import GeoReplication.Site.Fault
import GeoReplication.Site.MirrorRule
import GeoReplication.Program

/-!
# Site/Basic — what programs act on

A site is an installation at one moment: its clocks, its store and its queues, what has been set up
to go wrong, and the copies made so far.  `Site.perform` carries out one effect and `Program.run` a
whole program, with nothing else going on meanwhile.
-/

namespace GeoReplication

open GeoReplication.Time

/-- How a lease that is kept elsewhere answers. -/
structure LeaseScript where
  obtain : Except Error Bool
  /-- the next answers to a renewal; after these it succeeds -/
  renewals : List (Except Error Bool)
  /-- the clocks move on by this before each renewal, in milliseconds -/
  renewAdvance : Nat
  /-- why it cannot be given back -/
  cancel : Option Error

/-- A lease that is always free and never lost. -/
def LeaseScript.granted : LeaseScript := ⟨.ok true, [], 0, none⟩

/-- A copy that has begun or ended. -/
structure FetchNote where
  /-- time waited for copies before, in milliseconds -/
  waited : Nat
  /-- it began, or else it ended -/
  begins : Bool
  primaryUrl : String
  project : Project
  part : Part
deriving DecidableEq, Repr

/-- An installation at one moment. -/
structure Site where
  now : Instant
  /-- the clock that never goes back, in milliseconds -/
  uptime : Nat
  /-- time waited for copies, in milliseconds -/
  waited : Nat
  store : Store
  queues : Queues
  faults : List Fault
  rules : List MirrorRule
  lease : LeaseScript
  /-- copies begun and ended, oldest first -/
  journal : List FetchNote

/-- A copy under way. -/
structure Copying where
  primaryUrl : String
  project : Project
  part : Part
  rule : MirrorRule
deriving DecidableEq, Repr

namespace Site

/-- A site where nothing has happened yet and nothing is set up to go wrong. -/
def start (now : Instant) (store : Store) (queues : Queues) : Site :=
  ⟨now, 0, 0, store, queues, [], [], .granted, []⟩

/-- Both clocks move on. -/
def pass (s : Site) (millis : Nat) : Site :=
  { s with now := s.now.addMillis millis, uptime := s.uptime + millis }

/-- An operation of the store, unless a fault fails it. -/
def call (s : Site) (c : Call) : Except Failure c.Reply × Site :=
  match Fault.ask c.kind s.faults with
  | (some e, faults) => (.error (.error e), { s with faults })
  | (none, faults) =>
    let (outcome, store) := c.run s.now s.store
    (outcome, { s with store, faults })

/-- A queue after something was done to it. -/
def onQueue (s : Site) (name : String) (c : QueueCall) : c.Reply × Site :=
  let (reply, q) := c.run ((s.queues.get? name).getD .empty)
  (reply, { s with queues := s.queues.set name q })

/-- The answer of a lease that is kept elsewhere. -/
def askLease (s : Site) : (c : LeaseCall) → Except Failure c.Reply × Site
  | .obtain _ _ => (s.lease.obtain.mapError .error, s)
  | .renew _ _ =>
    let s := s.pass s.lease.renewAdvance
    match s.lease.renewals with
    | [] => (.ok true, s)
    | answer :: rest =>
      (answer.mapError .error, { s with lease := { s.lease with renewals := rest } })
  | .cancel _ =>
    match s.lease.cancel with
    | none => (.ok (), s)
    | some e => (.error (.error e), s)

/-- The site with a note more of a copy. -/
def note (s : Site) (c : Copying) (begins : Bool) : Site :=
  { s with journal := s.journal ++ [⟨s.waited, begins, c.primaryUrl, c.project, c.part⟩] }

/-- A copy begins. -/
def beginFetch (s : Site) (primaryUrl : String) (p : Project) (part : Part) : Copying × Site :=
  let (rule, rules) := MirrorRule.choose p.id part s.rules
  let c : Copying := ⟨primaryUrl, p, part, rule⟩
  (c, { s.note c true with rules }.pass rule.advance)

/-- What the rule of a copy makes happen before its end. -/
def meanwhile (s : Site) (c : Copying) : Except Failure Unit × Site :=
  match (if c.rule.touch then s.call (.touchProject c.project.id c.part s.now)
    else (.ok (), s)) with
  | (.error f, s) => (.error f, s)
  | (.ok (), s) =>
    match c.rule.resyncNode with
    | none => (.ok (), s)
    | some nodeId => s.call (.requestResync nodeId c.project.id c.part)

/-- A copy ends. -/
def endFetch (s : Site) (c : Copying) : Except Failure Unit × Site :=
  match (s.note c false).meanwhile c with
  | (.error f, s) => (.error f, s)
  | (.ok (), s) =>
    match c.rule.error with
    | none => (.ok (), s)
    | some e => (.error (.error e), s)

/-- Carries out one effect. -/
def perform (s : Site) : (e : Effect) → e.Reply × Site
  | .store c => s.call c
  | .clock => (s.now, s)
  | .uptime => (s.uptime, s)
  | .fetch primaryUrl p part =>
    let (c, s) := s.beginFetch primaryUrl p part
    s.endFetch c
  | .queue name c => s.onQueue name c
  | .dropJobs name metadata timeout =>
    let (outcome, queues) := s.queues.dropJobs name metadata timeout fun _ => 0
    (outcome, { s with queues })
  | .lease c => s.askLease c

end Site

namespace Program

variable {α β : Type}

/-- A whole program at a site, with nothing else going on. -/
def run : Program α → Site → Except Failure α × Site
  | done a, s => (.ok a, s)
  | failed f, s => (.error f, s)
  | perform e next, s =>
    let (reply, s) := s.perform e
    (next reply).run s

@[simp] theorem run_done (a : α) (s : Site) : (done a).run s = (.ok a, s) := rfl

@[simp] theorem run_failed (f : Failure) (s : Site) :
    (failed f : Program α).run s = (.error f, s) := rfl

theorem run_perform (e : Effect) (next : e.Reply → Program α) (s : Site) :
    (perform e next).run s = (next (s.perform e).1).run (s.perform e).2 := rfl

/-- One program after another runs from where the first has left the site. -/
theorem run_bind (t : Program α) (next : α → Program β) (s : Site) :
    (t >>= next).run s =
      match t.run s with
      | (.ok a, s') => (next a).run s'
      | (.error f, s') => (.error f, s') := by
  induction t generalizing s with
  | done a => rfl
  | failed f => rfl
  | perform e k ih => exact ih _ _

end Program

end GeoReplication
