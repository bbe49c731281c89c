import GeoReplication.Proofs.Store.Leases
import GeoReplication.Proofs.Tick.Interleave
import GeoReplication.Tick.Basic

/-!
# Proofs/Tick/Effects — what a tick can do

A tick looks up the primary and candidates of the categories it looks at, asks for its lease, looks
at the clocks, and puts jobs into its queue, whatever it is answered.  For each part of a tick one
lemma says so, with any `E` that allows what the part does; `every_tick` is about all of it.
-/

namespace GeoReplication

open Program

variable {E : Effect → Prop}

/-- Whatever is done with the lease of this name, for this time, is allowed. -/
structure Lease.Does (E : Effect → Prop) (l : Lease) (key : String) (ttl : Nat) : Prop where
  obtain : (l.obtain key ttl).Every E fun _ => True
  renew : (l.renew key ttl).Every E fun _ => True
  cancel : (l.cancel key).Every E fun _ => True

section Does

variable {key : String} {ttl : Nat} {holder : String}

theorem Lease.does_stored (hobtain : E (.store (.obtainLease key holder ttl)))
    (hrenew : E (.store (.renewLease key holder ttl)))
    (hrelease : E (.store (.releaseLease key holder))) :
    (Lease.stored holder).Does E key ttl where
  obtain := .call hobtain
  renew := .call hrenew
  cancel := by
    have hcall : (Program.call (.releaseLease key holder)).Every E fun _ => True := .call hrelease
    exact hcall.bind fun _ _ => trivial

theorem Lease.does_elsewhere (h : ∀ c, E (.lease c)) : Lease.elsewhere.Does E key ttl where
  obtain := .lease (h _)
  renew := .lease (h _)
  cancel := .lease (h _)

end Does

namespace Scheduler

variable {sched : Scheduler} {n : Node}

/-! ## Before a step -/

theorem every_obstacle (h : E (.store .getPrimaryNode)) :
    (sched.obstacle n).Every E fun _ => True := by
  rw [obstacle]
  split
  · trivial
  split
  · trivial
  split
  · trivial
  · refine Every.bind (p := fun _ => True) (.call h) fun primary _ => ?_
    split <;> trivial

theorem every_keepsLease
    (hl : sched.lease.Does E (leaseKey n) sched.config.leaseTimeoutMillis) :
    (sched.keepsLease n).Every E fun _ => True :=
  hl.renew.attempt.bind fun r _ => by cases r <;> trivial

theorem every_cancel {key : String} {ttl : Nat} (hl : sched.lease.Does E key ttl) :
    (sched.lease.cancel key).attempt.Every E fun _ => True :=
  hl.cancel.attempt.imp fun _ _ => trivial

/-! ## A step -/

section LookUps

variable {cs : List Category} {f : CandidateFilter}
  (h : ∀ c ∈ cs, ∀ afterId, E (.store (.findCandidates c f afterId sched.batchSize)))

include h

/-- A source goes on with its category. -/
theorem every_refill {src : Source} (hsrc : src.category ∈ cs) :
    (sched.refill f src).Every E fun src' => src'.category = src.category := by
  rw [refill]
  split
  · refine Every.bind (p := fun _ => True)
      ((Every.call (h _ hsrc _)).attempt.imp fun _ _ => trivial) fun r _ => ?_
    cases r with
    | ok page =>
      change (src.accept sched.batchSize page).category = src.category
      simp only [Source.accept]
      split <;> rfl
    | error e => rfl
  · rfl

theorem every_refillAll : ∀ {ss : List Source}, (∀ src ∈ ss, src.category ∈ cs) →
    (sched.refillAll f ss).Every E fun ss' => ∀ src ∈ ss', src.category ∈ cs
  | [], hss => hss
  | src :: ss, hss => by
      obtain ⟨hsrc, hrest⟩ := List.forall_mem_cons.mp hss
      refine (every_refill h hsrc).bind fun src' hsame => ?_
      refine (every_refillAll hrest).bind fun ss' hss' => ?_
      exact List.forall_mem_cons.mpr ⟨hsame ▸ hsrc, hss'⟩

end LookUps

theorem every_dispatch (hclock : E .clock) (hpush : ∀ job, E (.queue sched.queue (.push job))) :
    ∀ ids : List Int, (sched.dispatch n ids).Every E fun _ => True
  | [] => trivial
  | _ :: ids => ⟨hclock, fun _ => ⟨hpush _, fun _ =>
      (every_dispatch hclock hpush ids).bind fun _ _ => trivial⟩⟩

theorem every_room (h : E (.queue sched.queue .inFlight)) : (sched.room n).Every E fun _ => True :=
  ⟨h, fun _ => trivial⟩

/-- Picking and dispatching changes no category. -/
theorem every_fill (hask : ∀ id, E (.queue sched.queue (.isScheduled id))) (hclock : E .clock)
    (hpush : ∀ job, E (.queue sched.queue (.push job))) (capacity : Nat) (p : Progress) :
    (sched.fill n capacity p).Every E fun p' =>
      p'.sources.map (·.category) = p.sources.map (·.category) := by
  have hasked : ∀ id, (Program.queue sched.queue (.isScheduled id)).Every E fun _ => True :=
    fun id => ⟨hask id, fun _ => trivial⟩
  refine (Source.every_interleave hasked capacity p.sources p.seen).bind fun r hr => ?_
  exact (every_dispatch hclock hpush r.2.batch).bind fun _ _ => hr.picks.categories

/-! ## A tick -/

/-- Whatever a tick of a node can do after it has looked up the primary is allowed. -/
structure Does (E : Effect → Prop) (sched : Scheduler) (n : Node) : Prop where
  lookUp (c : Category) (hc : c ∈ categories sched.config.features) (afterId : Int) :
    E (.store (.findCandidates c (sched.filter n) afterId sched.batchSize))
  clock : E .clock
  uptime : E .uptime
  inFlight : E (.queue sched.queue .inFlight)
  isScheduled (id : Int) : E (.queue sched.queue (.isScheduled id))
  push (job : Job) : E (.queue sched.queue (.push job))
  lease : sched.lease.Does E (leaseKey n) sched.config.leaseTimeoutMillis

/-- The sources are of categories that are looked at. -/
abbrev Progress.Within (sched : Scheduler) (p : Progress) : Prop :=
  ∀ src ∈ p.sources, src.category ∈ categories sched.config.features

theorem Progress.Within.of_categories {p p' : Progress} (hp : p.Within sched)
    (h : p'.sources.map (·.category) = p.sources.map (·.category)) : p'.Within sched := by
  intro src hsrc
  have hcategory : src.category ∈ p'.sources.map (·.category) := List.mem_map_of_mem hsrc
  rw [h] at hcategory
  obtain ⟨src', hsrc', hsame⟩ := List.mem_map.mp hcategory
  exact hsame ▸ hp src' hsrc'

theorem every_steps (h : sched.Does E n) (deadline : Nat) :
    ∀ (count : Nat) {p : Progress}, p.Within sched →
      (sched.steps n deadline count p).Every E fun _ => True
  | 0, _, _ => trivial
  | count + 1, p, hp => by
      refine Every.bind (p := fun _ => True) (.uptime h.uptime) fun now _ => ?_
      split
      · trivial
      refine (every_keepsLease h.lease).bind fun held _ => ?_
      split
      · trivial
      refine (every_room h.inFlight).bind fun capacity _ => ?_
      split
      · trivial
      refine (every_refillAll h.lookUp hp).bind fun ss hss => ?_
      split
      · trivial
      have hp' : ({ p with sources := ss } : Progress).Within sched := hss
      exact (every_fill h.isScheduled h.clock h.push capacity _).bind fun p'' hsame =>
        every_steps h deadline count (hp'.of_categories hsame)

theorem within_sources (r : Rotation) :
    (⟨sources sched.config.features n r, [], []⟩ : Progress).Within sched := by
  intro src hsrc
  obtain ⟨c, hc, rfl⟩ := List.mem_map.mp hsrc
  exact hc

/-- A tick that holds the lease is not skipped. -/
theorem every_schedule (h : sched.Does E n) (r : Rotation) (limit : Nat) :
    (sched.schedule n r limit).Every E fun result => result.1.skipped = none := by
  refine Every.bind (p := fun _ => True) (.uptime h.uptime) fun now _ => ?_
  split
  · trivial
  split
  · rfl
  exact (every_steps h _ limit (within_sources r)).bind fun _ _ => rfl

/-- **What a tick can do.** -/
theorem every_tick (hprimary : E (.store .getPrimaryNode)) (h : sched.Does E n) (r : Rotation)
    (limit : Nat) : (sched.tick n r limit).Every E fun _ => True := by
  refine (every_obstacle hprimary).bind fun obstacle _ => ?_
  cases obstacle with
  | some reason => trivial
  | none =>
    refine h.lease.obtain.bind fun held _ => ?_
    split
    · trivial
    refine (every_schedule h r limit).bind fun result _ => ?_
    exact (every_cancel h.lease).bind fun _ _ => trivial

end Scheduler

end GeoReplication
