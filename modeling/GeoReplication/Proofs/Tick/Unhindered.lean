import GeoReplication.Proofs.Tick.Steps

/-!
# Proofs/Tick/Unhindered — a tick with nothing in its way

When a tick holds its lease, is in time and is answered by the store, and nobody else does anything,
it is a sweep: what it sees in the store and in the queue at its start decides what it schedules.
-/

namespace GeoReplication.Scheduler

open Program

variable {sched : Scheduler} {n : Node} {o : Outlook} {q : JobQueue} {s : Site} {deadline : Nat}

/-! ## The lease -/

theorem achieves_obtain (hl : sched.HasLease) (h : Sees sched n o q s) (key : String) (ttl : Nat) :
    Achieves (sched.GoesWell deadline) (sched.lease.obtain key ttl) s fun held s' =>
      held = true ∧ s'.uptime = s.uptime ∧ Sees sched n o q s' := by
  rcases hl with ⟨holder, hl⟩ | hl <;> rw [hl]
  · exact .call fun hwell => ⟨true, of_decide_eq_true hwell, rfl, Site.uptime_call _ _,
      h.call (Call.OnLeases.leases (c := .obtainLease key holder ttl) trivial _ _)⟩
  · exact .lease fun hwell => ⟨true, of_decide_eq_true hwell, rfl, rfl, h.askLease _⟩

/-- Giving the lease back never overflows, so whether or not it succeeds the tick goes on. -/
theorem achieves_cancel (hl : sched.HasLease) (h : Sees sched n o q s) (key : String) :
    Achieves (sched.GoesWell deadline) (sched.lease.cancel key).attempt s fun _ s' =>
      Sees sched n o q s' := by
  rcases hl with ⟨holder, hl⟩ | hl <;> rw [hl]
  · have hs' := h.call (Call.OnLeases.leases (c := .releaseLease key holder) trivial s.now s.store)
    have hoverflow := Site.call_ne_overflow (c := .releaseLease key holder) (s := s)
      fun f => Call.lift_ne_overflow _ _ f
    have hrun : ((Lease.stored holder).cancel key).run s =
        ((s.call (.releaseLease key holder)).1.map fun _ => (),
          (s.call (.releaseLease key holder)).2) := by
      rw [Lease.stored, run_bind, run_call]
      rcases s.call (.releaseLease key holder) with ⟨_ | _, _⟩ <;> rfl
    refine .attempt_of_ne_overflow (fun o he => ?_) fun _ => by rw [hrun]; exact hs'
    rw [hrun] at he
    cases hreply : (s.call (.releaseLease key holder)).1 with
    | error f =>
      rw [hreply] at he
      exact hoverflow o (hreply.trans (congrArg _ (Except.error.inj he)))
    | ok b =>
      rw [hreply] at he
      cases he
  · have hs' := h.askLease (.cancel key)
    have hrun : (Lease.elsewhere.cancel key).run s = s.askLease (.cancel key) := run_lease _ s
    refine .attempt_of_ne_overflow (fun o => ?_) fun _ => by rw [hrun]; exact hs'
    rw [hrun, Site.askLease]
    cases s.lease.cancel <;> exact fun he => by cases he

/-! ## The whole tick -/

/-- Nobody else does anything, and all goes well. -/
theorem conduct_alone (sched : Scheduler) (n : Node) (deadline : Nat) :
    Conduct sched n deadline (fun _ _ => False) (sched.GoesWell deadline) False where
  others _ _ _ := False.elim
  answered := id
  well _ _ := .inr

theorem achieves_steps (hl : sched.HasLease) (hstorages : sched.storages ≠ [])
    (hpage : sched.batchSize = o.pageSize) (count : Nat) (p : Progress)
    (hbusy : ∀ id, q.isScheduled id = o.busy p id) (h : Sees sched n o q s) :
    Achieves (sched.GoesWell deadline) (sched.steps n deadline count p) s fun r s' =>
      r.2 = (o.sweep count (n.reposMaxCapacity.toNat - q.inFlight) p).2 ∧
        (r.1 = .finished ↔
          (o.sweep count (n.reposMaxCapacity.toNat - q.inFlight) p).1 = .finished) ∧
        ∃ new q', r.2.scheduled = p.scheduled ++ new ∧ q.Takes n.id new q' ∧
          Sees sched n o q' s' := by
  refine (secures_steps hl hstorages hpage (conduct_alone sched n deadline) count p hbusy
    h).achieves.imp ?_
  rintro r s' ⟨⟨j, rfl | hnone, hprogress, hfinished⟩, hrest⟩
  · exact ⟨hprogress, hfinished, hrest⟩
  · exact hnone.elim

/-- A tick with nothing in its way: what it needs to begin, what it needs meanwhile, and as many
steps as it can need. -/
structure Unhindered (sched : Scheduler) (n : Node) (r : Rotation) (limit : Nat) (s : Site) :
    Prop where
  database : sched.config.databaseConfigured = true
  secondary : n.isSecondary = true
  enabled : n.enabled = true
  primary : s.store.HasPrimary
  lease : sched.HasLease
  /-- the clock can show the end of the time it has -/
  countable : s.uptime / 1000 + sched.config.maxRunTimeSeconds ≤ maxUptimeSeconds
  steps : s.tickLimit ≤ limit
  goesWell : (sched.tick n r limit).Throughout
    (sched.GoesWell (s.uptime + sched.config.maxRunTimeSeconds * 1000)) s

/-- An enabled secondary asks for the primary. -/
theorem obstacle_eq (hdb : sched.config.databaseConfigured = true)
    (hsecondary : n.isSecondary = true) (henabled : n.enabled = true) :
    sched.obstacle n = (do
      if (← Program.call .getPrimaryNode).isNone then pure (some .noPrimary) else pure none) := by
  simp [obstacle, hdb, hsecondary, henabled]

theorem achieves_obstacle (hdb : sched.config.databaseConfigured = true)
    (hsecondary : n.isSecondary = true) (henabled : n.enabled = true)
    (hprimary : s.store.HasPrimary) (h : Sees sched n o q s) :
    Achieves (sched.GoesWell deadline) (sched.obstacle n) s fun reason s' =>
      reason = none ∧ s'.uptime = s.uptime ∧ Sees sched n o q s' := by
  have hcall : Achieves (sched.GoesWell deadline) (Program.call .getPrimaryNode) s fun node s' =>
      node.isNone = false ∧ s'.uptime = s.uptime ∧ Sees sched n o q s' := by
    refine .call fun hwell => ?_
    obtain ⟨node, hnode⟩ := Site.reply_of_isOk hwell
    refine ⟨node, hnode, ?_, Site.uptime_call _ _,
      h.call ⟨s.store.leases, Call.snd_lift_read _ _⟩⟩
    have hread := Call.fst_lift_read.mp (congrArg Prod.fst (Site.run_of_call_ok hnode))
    rw [← Option.not_isSome, (Store.isSome_readPrimary hread).mpr hprimary]
    rfl
  rw [obstacle_eq hdb hsecondary henabled]
  refine hcall.bind ?_
  rintro node s' ⟨hnode, hrest⟩
  rw [hnode]
  exact .pure ⟨rfl, hrest⟩

/-- Where the sources of a tick begin. -/
def outset (sched : Scheduler) (n : Node) (r : Rotation) : Progress :=
  Outlook.outset (categories sched.config.features) fun c => (r.get? (n.id, c)).getD 0

/-- **What a tick picks** with room for `slots` jobs, in its order. -/
def picks (sched : Scheduler) (n : Node) (r : Rotation) (store : Store) (q : JobQueue)
    (slots : Nat) : List Int :=
  ((sched.outlook n store q).sweep (3 * store.projects.rows.length + 4) slots
    (sched.outset n r)).2.scheduled

theorem lookups_outset_le (r : Rotation) (store : Store) (q : JobQueue) :
    ∀ src ∈ (sched.outset n r).sources,
      (sched.outlook n store q).lookups src ≤ 2 * store.projects.rows.length + 2 := by
  intro src _
  have hlookups := Source.lookups_le src ((sched.outlook n store q).candidates src.category)
  have hlength := (store.allCandidates_sublist (sched.filter n) src.category).length_le
  rw [List.length_map] at hlength
  have hsame : (sched.outlook n store q).candidates src.category =
    store.allCandidates (sched.filter n) src.category := rfl
  rw [hsame] at hlookups
  rw [Outlook.lookups, hsame]
  omega

/-- The steps of a tick are enough. -/
theorem swept_outset (sched : Scheduler) (n : Node) (r : Rotation) (store : Store) (q : JobQueue)
    (slots : Nat) :
    Outlook.Swept (sched.outlook n store q) (categories sched.config.features) slots
      (sched.outset n r) ((sched.outlook n store q).sweep (3 * store.projects.rows.length + 4) slots
        (sched.outset n r)) := by
  refine Outlook.swept_sweep _ slots _ (Outlook.sound_outset _ _ _) (Outlook.covering_outset _ _ _)
    fun src hsrc => ?_
  have hlookups := lookups_outset_le r store q src hsrc
  omega

/-- Without storages there are no candidates, so nothing is picked. -/
theorem picks_of_no_storages (hstorages : sched.storages = []) (r : Rotation) (store : Store)
    (q : JobQueue) (slots : Nat) : sched.picks n r store q slots = [] := by
  refine List.eq_nil_iff_forall_not_mem.mpr fun id hid => ?_
  obtain ⟨-, c, -, hcandidate⟩ := (swept_outset sched n r store q slots).sound.free id hid
  obtain ⟨row, hrow, -⟩ := List.mem_map.mp hcandidate
  have hadmits := (List.mem_filter.mp hrow).2
  simp [Store.isCandidate, Store.admits, filter, hstorages] at hadmits

/-- With more steps than it can need a tick picks the same. -/
theorem sweep_of_limit_le (sched : Scheduler) (n : Node) {limit : Nat} (r : Rotation)
    (store : Store) (q : JobQueue) (slots : Nat)
    (hlimit : 3 * store.projects.rows.length + 4 ≤ limit) :
    ((sched.outlook n store q).sweep limit slots (sched.outset n r)).1 = .finished ∧
      ((sched.outlook n store q).sweep limit slots (sched.outset n r)).2.scheduled =
        sched.picks n r store q slots := by
  have hfin := (swept_outset sched n r store q slots).finished
  obtain ⟨more, rfl⟩ := Nat.exists_eq_add_of_le hlimit
  rw [Outlook.sweep_more_steps _ more _ _ hfin]
  exact ⟨hfin, rfl⟩

theorem achieves_schedule {r : Rotation} {limit : Nat} {store : Store} (hl : sched.HasLease)
    (hcountable : s.uptime / 1000 + sched.config.maxRunTimeSeconds ≤ maxUptimeSeconds)
    (hlimit : 3 * store.projects.rows.length + 4 ≤ limit)
    (h : Sees sched n (sched.outlook n store q) q s) :
    Achieves (sched.GoesWell (s.uptime + sched.config.maxRunTimeSeconds * 1000))
      (sched.schedule n r limit) s fun result s' =>
        result.1 = ⟨none, sched.picks n r store q (n.reposMaxCapacity.toNat - q.inFlight), false⟩ ∧
        ∃ q', q.Takes n.id (sched.picks n r store q (n.reposMaxCapacity.toNat - q.inFlight)) q' ∧
          Sees sched n (sched.outlook n store q) q' s' := by
  refine Achieves.bind (.uptime fun _ => ⟨rfl, h⟩ : Achieves _ _ _ fun now s' =>
    now = s.uptime ∧ Sees sched n (sched.outlook n store q) q s') ?_
  rintro now s' ⟨rfl, h'⟩
  rw [if_neg (Nat.not_lt.mpr hcountable)]
  by_cases hstorages : sched.storages = []
  · rw [if_pos (List.isEmpty_iff.mpr hstorages), picks_of_no_storages hstorages]
    exact .pure ⟨rfl, q, .nothing q n.id, h'⟩
  rw [if_neg (fun he => hstorages (List.isEmpty_iff.mp he))]
  have hbusy : ∀ id, q.isScheduled id = (sched.outlook n store q).busy (sched.outset n r) id :=
    fun id => (Bool.or_false _).symm
  refine (achieves_steps hl hstorages rfl limit (sched.outset n r) hbusy h').bind ?_
  obtain ⟨hfin, hpicks⟩ := sweep_of_limit_le sched n r store q
    (n.reposMaxCapacity.toNat - q.inFlight) hlimit
  rintro ⟨ending, p⟩ s'' ⟨rfl, hended, new, q', hnew, htakes, h''⟩
  obtain rfl : ending = .finished := hended.mpr hfin
  have hpicked : sched.picks n r store q (n.reposMaxCapacity.toNat - q.inFlight) = new :=
    hpicks.symm.trans hnew
  refine .pure ⟨?_, q', ?_, h''⟩
  · rw [hpicks]
    rfl
  · rw [hpicked]
    exact htakes

/-- **A tick with nothing in its way** reports what it picks, and the queue takes it in. -/
theorem Unhindered.run {r : Rotation} {limit : Nat} (h : Unhindered sched n r limit s)
    (hq : s.queues.get? sched.queue = some q) :
    ∃ r' s' q', (sched.tick n r limit).run s =
        (.ok (⟨none, sched.picks n r s.store q (n.reposMaxCapacity.toNat - q.inFlight), false⟩, r'),
          s') ∧
      s'.queues.get? sched.queue = some q' ∧
      q.Takes n.id (sched.picks n r s.store q (n.reposMaxCapacity.toNat - q.inFlight)) q' := by
  have hsees : Sees sched n (sched.outlook n s.store q) q s := ⟨fun _ => rfl, hq⟩
  have htick : Achieves (sched.GoesWell (s.uptime + sched.config.maxRunTimeSeconds * 1000))
      (sched.tick n r limit) s fun result s' =>
        result.1 =
          ⟨none, sched.picks n r s.store q (n.reposMaxCapacity.toNat - q.inFlight), false⟩ ∧
        ∃ q', q.Takes n.id (sched.picks n r s.store q (n.reposMaxCapacity.toNat - q.inFlight)) q' ∧
          Sees sched n (sched.outlook n s.store q) q' s' := by
    refine (achieves_obstacle h.database h.secondary h.enabled h.primary hsees).bind ?_
    rintro _ s₁ ⟨rfl, huptime₁, h₁⟩
    refine (achieves_obtain h.lease h₁ _ _).bind ?_
    rintro _ s₂ ⟨rfl, huptime₂, h₂⟩
    have huptime : s₂.uptime = s.uptime := huptime₂.trans huptime₁
    have hcountable := h.countable
    rw [← huptime] at hcountable ⊢
    refine Achieves.bind (achieves_schedule h.lease hcountable h.steps h₂) ?_
    rintro result s₃ ⟨hresult, q', htakes, h₃⟩
    refine (achieves_cancel h.lease h₃ _).bind fun _ s₄ h₄ => ?_
    exact .pure ⟨hresult, q', htakes, h₄⟩
  obtain ⟨⟨report, r'⟩, s', hrun, hreport, q', htakes, hs'⟩ := htick h.goesWell
  obtain rfl : report = _ := hreport
  exact ⟨r', s', q', hrun, hs'.queue, htakes⟩

end GeoReplication.Scheduler
