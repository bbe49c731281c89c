import GeoReplication.Proofs.Replication.Attempts
import GeoReplication.Proofs.Tick.Outcome

/-!
# Proofs/Replication/Ready — ticks of a node that is ready

A tick writes nothing but leases and jobs (`copied_of_tick`).  If its node is ready to copy, and it
is given its lease and not cut short, it schedules what it picks from the store as it finds it
(`tick_of_ready`).
-/

namespace GeoReplication

open Program

/-! ## Ticks write nothing -/

namespace Site

variable {s s' : Site} {nodeId : Int}

theorem Later.of_reflTransGen (h : Relation.ReflTransGen Later s s') : Later s s' := by
  induction h with
  | refl => exact .refl s
  | tail _ hl ih => exact ih.trans hl

theorem Copied.call_onLeases {c : Call} (hc : c.OnLeases) : Copied nodeId [] s (s.call c).2 := by
  obtain ⟨leases, hleases⟩ := hc.leases s.now s.store
  refine .call ?_
  rw [hleases]
  exact .leases nodeId _ _

theorem Copied.askLease (c : LeaseCall) : Copied nodeId [] s (s.askLease c).2 := by
  cases c with
  | obtain key ttl => exact .refl nodeId s
  | renew key ttl =>
    have hpass : Copied nodeId [] s (s.pass s.lease.renewAdvance) :=
      ⟨le_now_pass _ _, .refl nodeId _, [], (List.append_nil _).symm, rfl⟩
    simp only [Site.askLease]
    split
    · exact hpass
    · exact ⟨hpass.now, hpass.store, hpass.journal⟩
  | cancel key =>
    simp only [Site.askLease]
    split <;> exact .refl nodeId s

end Site

namespace Scheduler

open Site

variable {sched : Scheduler} {n : Node} {r : Rotation} {limit : Nat} {s s' : Site} {h : List Moment}

/-- Whatever a tick can do writes nothing but leases and jobs. -/
theorem HasLease.does_copied (hl : sched.HasLease) (nodeId : Int) :
    sched.Does (fun e => ∀ s : Site, s.Copied nodeId [] (s.perform e).2) n where
  lookUp _ _ _ s := .call (.refl nodeId s.store)
  clock s := .refl nodeId s
  uptime s := .refl nodeId s
  inFlight s := (Copied.refl nodeId s).onQueue _ _
  isScheduled _ s := (Copied.refl nodeId s).onQueue _ _
  push _ s := (Copied.refl nodeId s).onQueue _ _
  lease := hl.does (fun _ hc _ => .call_onLeases hc) fun c _ => .askLease c

theorem copied_of_tick {result : TickReport × Rotation} (hl : sched.HasLease)
    (hr : (sched.tick n r limit).Reaches Later s h (.done result) s') : s.Copied n.id [] s' := by
  have hlook (s : Site) : Copied n.id [] s (s.perform (.store .getPrimaryNode)).2 := by
    refine .call ?_
    have hsame : (Call.getPrimaryNode.run s.now s.store).2 = s.store := Call.snd_lift_read _ _
    rw [hsame]
    exact .refl n.id s.store
  have hevery := every_tick (n := n) hlook (hl.does_copied n.id) r limit
  obtain ⟨s₁, hs, -, h₁⟩ := hr.secures (F := fun _ _ => True) (fun _ _ => trivial)
    (Secures.of_every (I := fun s' => s.Copied n.id [] s') hevery (.refl n.id s)
      (fun _ _ => Copied.later) fun s' e he h => h.trans (he s'))
  exact h₁.later (.of_reflTransGen hs)

/-- Whoever writes nothing leaves alone what a tick sees. -/
theorem Aside.of_later (h : Later s s') : Aside sched n s s' :=
  ⟨fun c => by rw [h.store], by rw [h.queues]⟩

theorem looksUp_of_serves {e : Effect} (h : s.Serves e) : LooksUp s e := by
  unfold LooksUp looksUp
  split
  · exact h.serves
  · rfl

/-- An enabled secondary with room in an empty queue, which can copy. -/
structure Ready (sched : Scheduler) (n : Node) (s : Site) : Prop where
  database : sched.config.databaseConfigured = true
  lease : sched.HasLease
  secondary : n.isSecondary = true
  enabled : n.enabled = true
  capacity : 0 < n.reposMaxCapacity.toNat
  queue : s.queues.get? sched.queue = some .empty
  copies : s.CanCopy n.id

/-- A tick that is ready is skipped only if its lease is taken. -/
theorem secures_unskipped (hs : Ready sched n s) :
    (sched.tick n r limit).Secures Later Serves (Returns True fun result _ =>
      result.1.skipped = none ∨ result.1.skipped = some .leaseTaken) s := by
  have hdoes := hs.lease.does_copied (n := n) n.id
  have hobstacle : (sched.obstacle n).Secures Later Serves (Returns True fun reason _ =>
      reason = none) s := by
    rw [obstacle_eq hs.database hs.secondary hs.enabled]
    refine (secures_look (c := .getPrimaryNode) (P := fun q => Option.isNone q = false) (.refl s)
      (fun _ => Call.snd_lift_read _ _) fun now q hq => ?_).bind fun q _ hq => ?_
    · rw [Option.isNone_eq_false_iff]
      exact (Store.isSome_readPrimary (Call.fst_lift_read.mp hq)).mpr hs.copies.primary
    · rw [hq.1]
      exact rfl
  refine hobstacle.bind fun reason s₁ hreason => ?_
  subst hreason
  refine (Secures.of_values hdoes.lease.obtain).bind fun held s₂ _ => ?_
  split
  · exact .inr rfl
  refine (Secures.of_values (every_schedule hdoes r limit)).bind fun result s₃ hresult => ?_
  exact (Secures.of_values (every_cancel hdoes.lease)).bind fun _ s₄ _ => .inl hresult

/-- **A tick that is given its lease and not cut short** schedules what it picks, and writes
nothing. -/
theorem tick_of_ready {report : TickReport} {r' : Rotation} (hs : Ready sched n s)
    (hr : (sched.tick n r limit).Reaches Later s h (.done (report, r')) s')
    (hF : ∀ m ∈ h, m.site.Serves m.effect) (hlease : report.skipped ≠ some .leaseTaken)
    (hwhole : report.incomplete = false) :
    report = ⟨none, sched.picks n r s.store .empty n.reposMaxCapacity.toNat, false⟩ ∧
      s.Copied n.id [] s' ∧
      ∃ q', s'.queues.get? sched.queue = some q' ∧
        JobQueue.empty.Takes n.id report.scheduled q' := by
  obtain ⟨q', houtcome, hq'⟩ := tick_outcome hs.lease hs.queue (hr.mono fun _ _ => .of_later)
    fun m hm => looksUp_of_serves (hF m hm)
  obtain ⟨s₁, -, hskipped⟩ := hr.secures hF (secures_unskipped hs)
  have hnone : report.skipped = none := hskipped.resolve_right hlease
  refine ⟨?_, copied_of_tick hs.lease hr, q', hq', ?_⟩
  · cases houtcome with
    | idle skipped hstorages =>
      obtain rfl : skipped = none := hnone
      rw [picks_of_no_storages (hstorages rfl)]
    | swept steps hsweep htakes =>
      subst hsweep
      have hfin := not_not.mp (of_decide_eq_false hwhole)
      rw [sweep_of_finished hfin, decide_eq_false (not_not.mpr hfin)]
      rfl
  · cases houtcome with
    | idle skipped hstorages => exact .nothing _ _
    | swept steps hsweep htakes =>
      subst hsweep
      exact htakes

end Scheduler

end GeoReplication
