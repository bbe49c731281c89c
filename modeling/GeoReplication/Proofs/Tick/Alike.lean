import GeoReplication.Proofs.Program.Alike
import GeoReplication.Proofs.Tick.Outcome
import GeoReplication.Site.Workers

/-!
# Proofs/Tick/Alike — all that a tick reads

A tick asks whether there is a primary, looks up candidates of the categories it looks at, and asks
for its lease.  Of the store it learns no more, so on sites whose stores agree in this ticks are
alike (`alike_tick`).  Of its node it reads all but the namespaces, which go into the filter of
candidates only (`tick_congr`).
-/

namespace GeoReplication.Scheduler

open Program Site

variable {sched : Scheduler} {n : Node} {Q : Store → Store → Prop}

/-- Stores that are related differ in nothing that a tick of the node reads, and stay related as
long as their leases change alike. -/
structure Hides (sched : Scheduler) (n : Node) (Q : Store → Store → Prop) : Prop where
  nodes {s s' : Store} : Q s s' → s'.nodes = s.nodes
  leases {s s' : Store} : Q s s' → s'.leases = s.leases
  candidates {s s' : Store} {c : Category} : Q s s' → c ∈ categories sched.config.features →
    s'.allCandidates (sched.filter n) c = s.allCandidates (sched.filter n) c
  setLeases {s s' : Store} : Q s s' → ∀ leases, Q { s with leases } { s' with leases }

namespace Hides

variable (h : sched.Hides n Q)

include h

theorem sameOn_onLeases {c : Call} (hc : c.OnLeases) : Effect.SameOn (Beside Q Eq) (.store c) :=
  Beside.sameOn_store fun now s s' hs => by
    obtain ⟨hreply, leases, hrun, hrun'⟩ := hc.leasesOnly now s s' (h.leases hs)
    rw [hrun, hrun']
    exact ⟨hreply.symm, h.setLeases hs leases⟩

theorem sameOn_lookUp {c : Category} (hc : c ∈ categories sched.config.features) (afterId : Int)
    (limit : Nat) :
    Effect.SameOn (Beside Q Eq) (.store (.findCandidates c (sched.filter n) afterId limit)) :=
  Beside.sameOn_store fun now s s' hs => by
    refine ⟨?_, hs⟩
    change Except.ok (s.candidates (sched.filter n) c afterId limit) =
      Except.ok (s'.candidates (sched.filter n) c afterId limit)
    rw [Store.candidates, Store.candidates, h.candidates hs hc]

/-- After it has looked up the primary, whatever a tick does is answered the same. -/
theorem does_sameOn (hl : sched.HasLease) : sched.Does (Effect.SameOn (Beside Q Eq)) n where
  lookUp _ hc afterId := h.sameOn_lookUp hc afterId _
  clock := Beside.sameOn_clock
  uptime := Beside.sameOn_uptime
  inFlight := Beside.sameOn_queue _ _
  isScheduled _ := Beside.sameOn_queue _ _
  push _ := Beside.sameOn_queue _ _
  lease := hl.does (fun _ => h.sameOn_onLeases) Beside.sameOn_lease

/-- Of the primary a tick learns only that there is one. -/
theorem agree_getPrimaryNode {s s' : Store} (hs : Q s s') (now : Time.Instant) :
    Agree (fun a b => a.isNone = b.isNone) (Call.lift (.read fun s => s.readPrimary now) s).1
      (Call.lift (.read fun s => s.readPrimary now) s').1 := by
  rw [Call.lift, Call.lift, Action.run_read, Action.run_read, Store.readPrimary, Store.readPrimary,
    h.nodes hs]
  cases s.nodes.rows.find? fun r => r.2.primary with
  | none => rfl
  | some r =>
    rw [Store.nodeOf?, Store.nodeOf?, Store.nodeOf, Store.nodeOf, NodeRow.record_eq_map,
      NodeRow.record_eq_map now r.1 (s'.namespacesOf r.1)]
    cases r.2.record now r.1 [] <;> rfl

theorem alike_obstacle : Alike (Beside Q Eq) (· = ·) (sched.obstacle n) (sched.obstacle n) := by
  rw [obstacle]
  split
  · exact .pure rfl
  split
  · exact .pure rfl
  split
  · exact .pure rfl
  · have hprimary : Alike (Beside Q Eq) (fun a b => a.isNone = b.isNone)
        (Program.call .getPrimaryNode) (Program.call .getPrimaryNode) := by
      refine .call fun s s' hs => hs.call ?_
      change Agree _ (Call.lift (Store.getPrimaryNode s.now) s.store).1
          (Call.lift (Store.getPrimaryNode s.now) s'.store).1 ∧
        Q (Call.lift (Store.getPrimaryNode s.now) s.store).2
          (Call.lift (Store.getPrimaryNode s.now) s'.store).2
      rw [Store.getPrimaryNode, Call.snd_lift_read, Call.snd_lift_read]
      exact ⟨h.agree_getPrimaryNode hs.store s.now, hs.store⟩
    refine hprimary.bind fun a b hab => ?_
    rw [hab]
    split
    · exact .pure rfl
    · exact .pure rfl

/-- **Ticks are alike** where the stores agree in what a tick reads. -/
theorem alike_tick (hl : sched.HasLease) (r : Rotation) (limit : Nat) :
    Alike (Beside Q Eq) (· = ·) (sched.tick n r limit) (sched.tick n r limit) := by
  have hdoes := h.does_sameOn hl
  refine h.alike_obstacle.bind_eq fun obstacle => ?_
  cases obstacle with
  | some reason => exact .pure rfl
  | none =>
    refine (Alike.of_every hdoes.lease.obtain).bind_eq fun held => ?_
    split
    · exact .pure rfl
    refine (Alike.of_every (every_schedule hdoes r limit)).bind_eq fun result => ?_
    exact (Alike.of_every (every_cancel hdoes.lease)).bind fun _ _ _ => .pure rfl

end Hides

/-! ## Namespaces of the node -/

section Namespaces

variable {ids : List Int}

theorem dispatch_congr : ∀ projects : List Int,
    sched.dispatch { n with namespaceIds := ids } projects = sched.dispatch n projects
  | [] => rfl
  | id :: projects => by rw [dispatch, dispatch, dispatch_congr projects]

theorem steps_congr (hf : sched.filter { n with namespaceIds := ids } = sched.filter n)
    (deadline : Nat) : ∀ (count : Nat) (p : Progress),
      sched.steps { n with namespaceIds := ids } deadline count p = sched.steps n deadline count p
  | 0, _ => rfl
  | count + 1, p => by
      have ih := funext (steps_congr hf deadline count)
      rw [steps, steps, hf, ih]
      simp only [fill, dispatch_congr]
      rfl

/-- The namespaces of its node concern a tick only as they go into its filter. -/
theorem tick_congr (hf : sched.filter { n with namespaceIds := ids } = sched.filter n)
    (r : Rotation) (limit : Nat) :
    sched.tick { n with namespaceIds := ids } r limit = sched.tick n r limit := by
  have hschedule : sched.schedule { n with namespaceIds := ids } r limit =
      sched.schedule n r limit := by
    rw [schedule, schedule]
    simp only [steps_congr hf]
    rfl
  rw [tick, tick, hschedule]
  rfl

end Namespaces

end GeoReplication.Scheduler
