import GeoReplication.Proofs.Tick.Effects
import GeoReplication.Proofs.Tick.Unhindered

/-!
# Proofs/Tick/Outcome — what a tick that ends has done

A tick may be late, lose its lease or run out of steps, and others may act meanwhile, as long as
they leave the candidates and the queue alone.  If its look-ups were answered it was skipped, or it
was a sweep of some number of steps (`Scheduler.Outcome`, `tick_outcome`).
-/

namespace GeoReplication

/-- The effect changes nothing but leases and clocks. -/
def Effect.OnlyLeases : Effect → Prop
  | .store c => c = .getPrimaryNode ∨ c.OnLeases
  | .clock => True
  | .uptime => True
  | .lease _ => True
  | _ => False

namespace Scheduler

open Program

variable {sched : Scheduler} {n : Node} {r : Rotation} {limit : Nat} {o : Outlook} {q q' : JobQueue}
  {s s' : Site} {others : Site → Site → Prop} {F : Site → Effect → Prop} {h : List Moment}

theorem Sees.own {e : Effect} (he : e.OnlyLeases) (h : Sees sched n o q s) :
    Sees sched n o q (s.perform e).2 := by
  cases e with
  | store c =>
    rcases he with rfl | hc
    · exact h.call ⟨s.store.leases, Call.snd_lift_read _ _⟩
    · exact h.call (hc.leases _ _)
  | clock => exact h
  | uptime => exact h
  | lease c => exact h.askLease c
  | _ => exact he.elim

theorem HasLease.does {E : Effect → Prop} {key : String} {ttl : Nat} (hl : sched.HasLease)
    (hstore : ∀ c : Call, c.OnLeases → E (.store c)) (hlease : ∀ c, E (.lease c)) :
    sched.lease.Does E key ttl := by
  rcases hl with ⟨holder, hl⟩ | hl <;> rw [hl]
  · exact Lease.does_stored (hstore _ trivial) (hstore _ trivial) (hstore _ trivial)
  · exact Lease.does_elsewhere hlease

theorem HasLease.onlyLeases (hl : sched.HasLease) (key : String) (ttl : Nat) :
    sched.lease.Does Effect.OnlyLeases key ttl :=
  hl.does (fun _ => .inr) fun _ => trivial

/-! ## The outcome -/

/-- How a tick can end that sees `o` and a queue `q`: its report, where it left off, and the queue
afterwards. -/
inductive Outcome (sched : Scheduler) (n : Node) (r : Rotation) (o : Outlook) (q : JobQueue) :
    TickReport × Rotation → JobQueue → Prop
  /-- it was skipped, or no storage can be reached -/
  | idle (skipped : Option SkipReason) : (skipped = none → sched.storages = []) →
    Outcome sched n r o q (⟨skipped, [], false⟩, r) q
  /-- it was a sweep -/
  | swept (steps : Nat) {result : Ending × Progress} {q' : JobQueue} :
    o.sweep steps (n.reposMaxCapacity.toNat - q.inFlight) (sched.outset n r) = result →
    q.Takes n.id result.2.scheduled q' →
    Outcome sched n r o q
      (⟨none, result.2.scheduled, result.1 ≠ .finished⟩, remember n result.2.sources r) q'

theorem secures_schedule (hl : sched.HasLease) (hpage : sched.batchSize = o.pageSize)
    (hc : ∀ deadline, Conduct sched n deadline others F True) (hbusy : q.isScheduled = o.inFlight)
    (h : Sees sched n o q s) :
    (sched.schedule n r limit).Secures others F (Returns True fun result s' =>
      ∃ q', Outcome sched n r o q result q' ∧ Sees sched n o q' s') s := by
  refine Secures.bind (M := fun _ s' => Sees sched n o q s')
    (.uptime h (hc 0).others fun s h _ => h) fun now s' h' => ?_
  split
  · trivial
  split
  · next hstorages =>
    exact ⟨q, .idle none fun _ => List.isEmpty_iff.mp hstorages, h'⟩
  next hstorages =>
  have hbusy' : ∀ id, q.isScheduled id = o.busy (sched.outset n r) id := fun id => by
    rw [hbusy]
    exact (Bool.or_false _).symm
  refine (secures_steps hl (fun he => hstorages (List.isEmpty_iff.mpr he)) hpage (hc _) limit
    (sched.outset n r) hbusy' h').bind ?_
  rintro ⟨ending, p⟩ s'' ⟨⟨j, -, rfl, hfinished⟩, new, q', hnew, htakes, h''⟩
  have hending : decide (ending ≠ .finished) = decide ((o.sweep j
      (n.reposMaxCapacity.toNat - q.inFlight) (sched.outset n r)).1 ≠ .finished) :=
    decide_eq_decide.mpr (not_congr hfinished)
  refine ⟨q', ?_, h''⟩
  rw [hending]
  refine .swept j rfl ?_
  rw [hnew]
  exact htakes

theorem secures_tick (hl : sched.HasLease) (hpage : sched.batchSize = o.pageSize)
    (hc : ∀ deadline, Conduct sched n deadline others F True) (hbusy : q.isScheduled = o.inFlight)
    (h : Sees sched n o q s) :
    (sched.tick n r limit).Secures others F (Returns True fun result s' =>
      ∃ q', Outcome sched n r o q result q' ∧ Sees sched n o q' s') s := by
  refine (Secures.of_every (every_obstacle (.inl rfl)) h (hc 0).others fun _ _ => Sees.own).bind ?_
  rintro (_ | reason) s₁ ⟨-, h₁⟩
  · refine (Secures.of_every (hl.onlyLeases _ _).obtain h₁ (hc 0).others
      fun _ _ => Sees.own).bind ?_
    rintro held s₂ ⟨-, h₂⟩
    split
    · exact ⟨q, .idle _ (by rintro ⟨⟩), h₂⟩
    refine (secures_schedule hl hpage hc hbusy h₂).bind ?_
    rintro result s₃ ⟨q', houtcome, h₃⟩
    refine (Secures.of_every (every_cancel (hl.onlyLeases _ 0)) h₃ (hc 0).others
      fun _ _ => Sees.own).bind ?_
    rintro _ s₄ ⟨-, h₄⟩
    exact ⟨q', houtcome, h₄⟩
  · exact ⟨q, .idle _ (by rintro ⟨⟩), h₁⟩

/-! ## Runs with others -/

/-- Others leave alone what a tick sees. -/
structure Aside (sched : Scheduler) (n : Node) (s s' : Site) : Prop where
  candidates (c : Category) :
    s'.store.allCandidates (sched.filter n) c = s.store.allCandidates (sched.filter n) c
  queue : s'.queues.get? sched.queue = s.queues.get? sched.queue

/-- A look-up of candidates is answered; other effects are not asked about. -/
def looksUp (s : Site) : Effect → Bool
  | .store (.findCandidates c f afterId size) =>
    (s.call (.findCandidates c f afterId size)).1.isOk
  | _ => true

/-- No look-up of candidates fails. -/
def LooksUp (s : Site) (e : Effect) : Prop := looksUp s e = true

instance (s : Site) (e : Effect) : Decidable (LooksUp s e) :=
  inferInstanceAs (Decidable (looksUp s e = true))

theorem conduct_aside (sched : Scheduler) (n : Node) (deadline : Nat) :
    Conduct sched n deadline (Aside sched n) LooksUp True where
  others _ _ h ho := ⟨fun c => (ho.candidates c).trans (h.candidates c), ho.queue.trans h.queue⟩
  answered := id
  well _ _ _ := .inl trivial

/-- **What a tick that ends has done**, if its look-ups were answered. -/
theorem tick_outcome {result : TickReport × Rotation} (hl : sched.HasLease)
    (hq : s.queues.get? sched.queue = some q)
    (hr : (sched.tick n r limit).Reaches (Aside sched n) s h (.done result) s')
    (hF : ∀ m ∈ h, LooksUp m.site m.effect) :
    ∃ q', Outcome sched n r (sched.outlook n s.store q) q result q' ∧
      s'.queues.get? sched.queue = some q' := by
  have hsees : Sees sched n (sched.outlook n s.store q) q s := ⟨fun _ => rfl, hq⟩
  obtain ⟨s₁, hs, q', houtcome, h₁⟩ := hr.secures hF
    (secures_tick hl rfl (conduct_aside sched n) rfl hsees)
  refine ⟨q', houtcome, ?_⟩
  have hqueue : s'.queues.get? sched.queue = s₁.queues.get? sched.queue := by
    clear houtcome hr
    induction hs with
    | refl => rfl
    | tail _ ho ih => exact ho.queue.trans ih
  rw [hqueue, h₁.queue]

/-! ## Where it leaves off -/

theorem get?_remember_of_notMem {c : Category} : ∀ (ss : List Source) (r : Rotation),
    c ∉ ss.map (·.category) → (remember n ss r).get? (n.id, c) = r.get? (n.id, c)
  | [], _, _ => rfl
  | s :: ss, r, h => by
      rw [List.map_cons, List.mem_cons, not_or] at h
      have hne : ¬ (n.id, c) = (n.id, s.category) := fun he => h.1 (Prod.mk.inj he).2
      refine (get?_remember_of_notMem ss _ h.2).trans ?_
      rw [Store.Table.get?_upsert, if_neg hne]

/-- The rotation holds where each source is to go on. -/
theorem get?_remember : ∀ (ss : List Source) (r : Rotation), (ss.map (·.category)).Nodup →
    ∀ s ∈ ss, (remember n ss r).get? (n.id, s.category) = some s.resumeAfter
  | [], _, _, s, hs => absurd hs List.not_mem_nil
  | t :: ss, r, hn, s, hs => by
      obtain ⟨ht, hn⟩ := List.nodup_cons.mp hn
      rcases List.mem_cons.mp hs with rfl | hs
      · refine (get?_remember_of_notMem ss _ ht).trans ?_
        rw [Store.Table.get?_upsert, if_pos rfl]
        cases r.get? (n.id, s.category) <;> rfl
      · exact get?_remember ss _ hn s hs

/-- Whatever a sweep dispatches begins what the tick would pick. -/
theorem sweep_begins_picks (steps : Nat) (store : Store) (slots : Nat) :
    ((sched.outlook n store q).sweep steps slots (sched.outset n r)).2.scheduled <+:
      sched.picks n r store q slots := by
  have hfin := (swept_outset sched n r store q slots).finished
  have hbegins := Outlook.sweep_begins (o := sched.outlook n store q) steps
    (3 * store.projects.rows.length + 4) slots (sched.outset n r)
  rwa [Nat.add_comm, Outlook.sweep_more_steps _ _ _ _ hfin] at hbegins

/-- A sweep that has ended dispatched all that the tick picks. -/
theorem sweep_of_finished {steps slots : Nat} {store : Store}
    (hfin : ((sched.outlook n store q).sweep steps slots (sched.outset n r)).1 = .finished) :
    ((sched.outlook n store q).sweep steps slots (sched.outset n r)).2.scheduled =
      sched.picks n r store q slots := by
  rw [Outlook.sweep_eq_of_finished hfin (swept_outset sched n r store q slots).finished]
  rfl

end Scheduler

end GeoReplication
