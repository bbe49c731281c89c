import GeoReplication.Proofs.Program.Secures
import GeoReplication.Proofs.Site.Frame
import GeoReplication.Proofs.Store.Candidates
import GeoReplication.Proofs.Store.Leases
import GeoReplication.Proofs.Tick.Sweep
import GeoReplication.Site.Workers

/-!
# Proofs/Tick/Steps — the steps of a tick are a sweep, as far as they go

What a tick sees in the store and in the queue at its start (`Scheduler.outlook`) decides what its
steps do, if no look-up fails and others leave the candidates and the queue alone: only leases
change in the store meanwhile, and the queue grows by the jobs that are pushed (`Scheduler.Sees`,
`JobQueue.Takes`).  When time or lease runs out the steps are a sweep of fewer steps
(`secures_steps`).
-/

namespace GeoReplication

/-! ## What a tick sees -/

namespace JobQueue

/-- `q'` has taken in jobs for projects `ids`, which a node is to copy in this order. -/
def Takes (q : JobQueue) (nodeId : Int) (ids : List Int) (q' : JobQueue) : Prop :=
  ∃ jobs : List Job, q' = { q with pending := q.pending ++ jobs } ∧
    jobs.map (·.projectId) = ids ∧ ∀ job ∈ jobs, job.nodeId = nodeId

namespace Takes

variable {q q' q'' : JobQueue} {nodeId : Int} {ids ids' : List Int} {id : Int}

theorem nothing (q : JobQueue) (nodeId : Int) : q.Takes nodeId [] q :=
  ⟨[], by simp, rfl, by simp⟩

theorem trans (h : q.Takes nodeId ids q') (h' : q'.Takes nodeId ids' q'') :
    q.Takes nodeId (ids ++ ids') q'' := by
  obtain ⟨jobs, rfl, rfl, hnode⟩ := h
  obtain ⟨jobs', rfl, rfl, hnode'⟩ := h'
  refine ⟨jobs ++ jobs', by simp, by simp, fun job hjob => ?_⟩
  exact (List.mem_append.mp hjob).elim (hnode job) (hnode' job)

/-- A job is taken in if its project is not in flight. -/
theorem push (job : Job) (h : job.projectId ∉ q.projects) :
    q.Takes job.nodeId [job.projectId] (q.push job).2 :=
  ⟨[job], by rw [push_of_notMem h], rfl, by simp⟩

theorem inFlight (h : q.Takes nodeId ids q') : q'.inFlight = q.inFlight + ids.length := by
  obtain ⟨jobs, rfl, rfl, -⟩ := h
  simp only [JobQueue.inFlight, List.length_append, List.length_map]
  omega

theorem isScheduled (h : q.Takes nodeId ids q') :
    q'.isScheduled id = (q.isScheduled id || ids.contains id) := by
  obtain ⟨jobs, rfl, rfl, -⟩ := h
  rw [Bool.eq_iff_iff, Bool.or_eq_true, List.contains_iff_mem, isScheduled_iff, isScheduled_iff]
  simp only [projects, List.map_append, List.mem_append]
  exact or_right_comm

end Takes

end JobQueue

namespace Scheduler

/-- What a tick for a node sees in a store and a queue. -/
def outlook (sched : Scheduler) (n : Node) (store : Store) (q : JobQueue) : Outlook where
  candidates := store.allCandidates (sched.filter n)
  ascending := store.allCandidates_pairwise (sched.filter n)
  positive _ _ := Store.pos_of_mem_allCandidates
  pageSize := sched.batchSize
  pageSize_pos := Nat.lt_of_lt_of_le Nat.one_pos (Nat.le_max_right _ _)
  inFlight := q.isScheduled

/-- The site shows the candidates of an outlook, and the queue is `q`. -/
structure Sees (sched : Scheduler) (n : Node) (o : Outlook) (q : JobQueue) (s : Site) : Prop where
  candidates (c : Category) : s.store.allCandidates (sched.filter n) c = o.candidates c
  queue : s.queues.get? sched.queue = some q

/-- An effect is answered as a tick needs it. -/
def answersWell (sched : Scheduler) (deadline : Nat) (s : Site) : Effect → Bool
  | .uptime => sched.storages.isEmpty || decide (s.uptime < deadline)
  | .store (.obtainLease key holder ttl) =>
    decide ((s.call (.obtainLease key holder ttl)).1 = .ok true)
  | .store (.renewLease key holder ttl) =>
    decide ((s.call (.renewLease key holder ttl)).1 = .ok true)
  | .store (.releaseLease _ _) => true
  | .store c => (s.call c).1.isOk
  | .lease (.obtain key ttl) => decide ((s.askLease (.obtain key ttl)).1 = .ok true)
  | .lease (.renew key ttl) => decide ((s.askLease (.renew key ttl)).1 = .ok true)
  | _ => true

/-- A tick is in time, is given its lease, keeps it, and is answered by the store. -/
def GoesWell (sched : Scheduler) (deadline : Nat) (s : Site) (e : Effect) : Prop :=
  sched.answersWell deadline s e = true

instance (sched : Scheduler) (deadline : Nat) (s : Site) (e : Effect) :
    Decidable (sched.GoesWell deadline s e) :=
  inferInstanceAs (Decidable (sched.answersWell deadline s e = true))

/-- The lease is of one of the two kinds there are. -/
def HasLease (sched : Scheduler) : Prop :=
  (∃ holder, sched.lease = .stored holder) ∨ sched.lease = .elsewhere

section Parts

open Program

variable {sched : Scheduler} {n : Node} {o : Outlook} {q : JobQueue} {s : Site} {deadline : Nat}

namespace Sees

theorem call (h : Sees sched n o q s) {c : Call}
    (hc : ∃ leases, (c.run s.now s.store).2 = { s.store with leases }) :
    Sees sched n o q (s.call c).2 := by
  refine ⟨fun cat => ?_, ?_⟩
  · rcases s.store_call c with hsame | hrun
    · rw [hsame, h.candidates]
    · obtain ⟨leases, hleases⟩ := hc
      rw [hrun, hleases, Store.allCandidates_setLeases, h.candidates]
  · rw [Site.queues_call, h.queue]

theorem askLease (h : Sees sched n o q s) (c : LeaseCall) : Sees sched n o q (s.askLease c).2 :=
  ⟨fun cat => by rw [Site.store_askLease, h.candidates], by rw [Site.queues_askLease, h.queue]⟩

theorem onQueue (h : Sees sched n o q s) (c : QueueCall) :
    Sees sched n o (c.run q).2 (s.onQueue sched.queue c).2 :=
  ⟨h.candidates, by rw [Site.get?_onQueue _ _ _ _ h.queue, if_pos rfl]⟩

end Sees

/-! ## Conduct -/

/-- How the steps of a tick go: others keep what it sees, its look-ups are answered, and nothing
else goes wrong unless the tick is `hindered`. -/
structure Conduct (sched : Scheduler) (n : Node) (deadline : Nat) (others : Site → Site → Prop)
    (F : Site → Effect → Prop) (hindered : Prop) : Prop where
  others {o : Outlook} {q : JobQueue} (s s' : Site) :
    Sees sched n o q s → others s s' → Sees sched n o q s'
  answered {s : Site} {c : Category} {f : CandidateFilter} {afterId : Int} {size : Nat} :
    F s (.store (.findCandidates c f afterId size)) →
      (s.call (.findCandidates c f afterId size)).1.isOk = true
  well (s : Site) (e : Effect) : F s e → hindered ∨ sched.GoesWell deadline s e

variable {others : Site → Site → Prop} {F : Site → Effect → Prop} {hindered : Prop}

theorem secures_keepsLease (hl : sched.HasLease)
    (hc : Conduct sched n deadline others F hindered) (h : Sees sched n o q s) :
    (sched.keepsLease n).Secures others F
      (Returns hindered fun held s' => (held = true ∨ hindered) ∧ Sees sched n o q s') s := by
  -- a renewal that is not answered as it should be is a hindrance
  have hrenew : (sched.lease.renew (leaseKey n) sched.config.leaseTimeoutMillis).Secures others F
      (fun r s' => (r = .ok true ∨ hindered) ∧ Sees sched n o q s') s := by
    rcases hl with ⟨holder, hl⟩ | hl <;> rw [hl]
    · refine .call h hc.others fun s h hF => ⟨?_, h.call
        (Call.OnLeases.leases (c := .renewLease _ holder _) trivial _ _)⟩
      exact ((hc.well _ _ hF).imp_right fun hwell => of_decide_eq_true hwell).symm
    · refine .lease h hc.others fun s h hF => ⟨?_, h.askLease _⟩
      exact ((hc.well _ _ hF).imp_right fun hwell => of_decide_eq_true hwell).symm
  refine Secures.bind (M := fun r s' => (r = .ok true ∨ hindered) ∧ Sees sched n o q s')
    (.attempt (hrenew.imp ?_)) ?_
  · rintro (f | held) s' ⟨hok, h'⟩
    · have hindrance : hindered := hok.resolve_left (by rintro ⟨⟩)
      cases f with
      | error e => exact ⟨.inr hindrance, h'⟩
      | overflow o => exact hindrance
    · exact ⟨hok.imp_left (by rintro ⟨⟩; rfl), h'⟩
  · rintro (e | held) s' ⟨hok, h'⟩
    · exact ⟨.inr (hok.resolve_left (by rintro ⟨⟩)), h'⟩
    · exact ⟨hok.imp_left (by rintro ⟨⟩; rfl), h'⟩

/-! ## Looking up -/

theorem secures_refill (hpage : sched.batchSize = o.pageSize)
    (hc : Conduct sched n deadline others F hindered) (h : Sees sched n o q s) (src : Source) :
    (sched.refill (sched.filter n) src).Secures others F
      (Returns hindered fun src' s' => src' = o.refill src ∧ Sees sched n o q s') s := by
  rw [refill, Outlook.refill]
  split
  · refine Secures.bind (M := fun page s' => page = .ok (Store.limited o.pageSize
      (Source.behind (o.candidates src.category) src.afterId)) ∧ Sees sched n o q s')
      (.attempt (.call h hc.others fun s h hF => ?_)) ?_
    · obtain ⟨page, hreply⟩ := Site.reply_of_isOk (hc.answered hF)
      have hrun := Site.run_of_call_ok hreply
      have hread : Except.ok (s.store.candidates (sched.filter n) src.category src.afterId
          sched.batchSize) = (.ok page : Except Failure (List Int)) := congrArg Prod.fst hrun
      rw [hreply]
      refine ⟨congrArg _ ?_, h.call ⟨s.store.leases, rfl⟩⟩
      rw [← Except.ok.inj hread, Store.candidates, h.candidates, hpage]
      rfl
    · rintro _ s' ⟨rfl, h'⟩
      rw [hpage]
      exact ⟨rfl, h'⟩
  · exact ⟨rfl, h⟩

theorem secures_refillAll (hpage : sched.batchSize = o.pageSize)
    (hc : Conduct sched n deadline others F hindered) :
    ∀ (ss : List Source) {s : Site}, Sees sched n o q s →
      (sched.refillAll (sched.filter n) ss).Secures others F
        (Returns hindered fun ss' s' => ss' = ss.map o.refill ∧ Sees sched n o q s') s
  | [], s, h => ⟨rfl, h⟩
  | src :: ss, s, h => by
      refine (secures_refill hpage hc h src).bind ?_
      rintro _ s' ⟨rfl, h'⟩
      refine (secures_refillAll hpage hc ss h').bind ?_
      rintro _ s'' ⟨rfl, h''⟩
      exact ⟨rfl, h''⟩

/-! ## Picking and pushing -/

theorem secures_queue (hc : Conduct sched n deadline others F hindered) (h : Sees sched n o q s)
    (c : QueueCall) :
    (Program.queue sched.queue c).Secures others F
      (Returns hindered fun r s' => r = (c.run q).1 ∧ Sees sched n o (c.run q).2 s') s :=
  .queue h hc.others fun _ h => ⟨Site.onQueue_reply _ _ _ h.queue, h.onQueue c⟩

theorem secures_room (hc : Conduct sched n deadline others F hindered) (h : Sees sched n o q s) :
    (sched.room n).Secures others F (Returns hindered fun slots s' =>
      slots = n.reposMaxCapacity.toNat - q.inFlight ∧ Sees sched n o q s') s := by
  refine (secures_queue hc h .inFlight).bind ?_
  rintro _ s' ⟨rfl, h'⟩
  exact ⟨rfl, h'⟩

/-- Nothing changes while a batch is picked. -/
theorem secures_interleave {p : Progress} (hbusy : ∀ id, q.isScheduled id = o.busy p id)
    (hc : Conduct sched n deadline others F hindered) (h : Sees sched n o q s) (slots : Nat)
    (ss : List Source) (seen : List Int) :
    (Source.interleave (fun id => Program.queue sched.queue (.isScheduled id)) slots ss
      seen).Secures others F (Returns hindered fun r s' =>
        r = Source.draw (o.busy p) slots ss seen ∧ Sees sched n o q s') s := by
  have hmirrors : Mirrors (m := Program) fun t a => ∀ s, Sees sched n o q s →
      t.Secures others F (Returns hindered fun b s' => b = a ∧ Sees sched n o q s') s :=
    { pure := fun a s h => ⟨rfl, h⟩
      bind := fun ht hnext s h => (ht s h).bind fun _ s' hs' => by
        obtain ⟨rfl, h'⟩ := hs'
        exact hnext s' h' }
  refine Source.mirrors_interleave hmirrors (fun id s h => ?_) slots ss seen s h
  exact (secures_queue hc h (.isScheduled id)).weaken fun b s' hs' =>
    ⟨hs'.1.trans (hbusy id), hs'.2⟩

/-- Jobs for projects that are not in flight are all taken in. -/
theorem secures_dispatch (hc : Conduct sched n deadline others F hindered) :
    ∀ (ids : List Int) {q : JobQueue} {s : Site}, ids.Nodup → (∀ id ∈ ids, id ∉ q.projects) →
    Sees sched n o q s →
    (sched.dispatch n ids).Secures others F (Returns hindered fun taken s' =>
      taken = ids ∧ ∃ q', q.Takes n.id ids q' ∧ Sees sched n o q' s') s
  | [], q, s, _, _, h => ⟨rfl, q, .nothing q n.id, h⟩
  | id :: ids, q, s, hn, hfree, h => by
      obtain ⟨hid, hn⟩ := List.nodup_cons.mp hn
      have hnot := hfree id List.mem_cons_self
      refine Secures.bind (M := fun _ s' => Sees sched n o q s')
        (.clock h hc.others fun s h _ => h) fun now s₁ h₁ => ?_
      refine (secures_queue hc h₁ (.push ⟨id, n.id, now⟩)).bind ?_
      rintro taken s₂ ⟨rfl, h₂⟩
      have htaken : (q.push ⟨id, n.id, now⟩).1 = true := by rw [JobQueue.push_of_notMem hnot]
      have hfree' : ∀ id' ∈ ids, id' ∉ (q.push ⟨id, n.id, now⟩).2.projects := by
        intro id' hid' hmem
        rcases List.mem_cons.mp ((JobQueue.projects_push_perm hnot).mem_iff.mp hmem) with rfl | hmem
        · exact hid hid'
        · exact hfree id' (List.mem_cons_of_mem _ hid') hmem
      refine (secures_dispatch hc ids hn hfree' h₂).bind ?_
      rintro rest s₃ ⟨rfl, q', htakes, h₃⟩
      refine ⟨?_, q', (JobQueue.Takes.push ⟨id, n.id, now⟩ hnot).trans htakes, h₃⟩
      exact if_pos htaken

/-- All that is picked is dispatched. -/
theorem secures_fill {p : Progress} (hbusy : ∀ id, q.isScheduled id = o.busy p id)
    (hc : Conduct sched n deadline others F hindered) (h : Sees sched n o q s) (slots : Nat)
    (ss : List Source) :
    let r := Source.draw (o.busy p) slots ss p.seen
    (sched.fill n slots { p with sources := ss }).Secures others F
      (Returns hindered fun p' s' => p' = ⟨r.1, r.2.seen, p.scheduled ++ r.2.batch⟩ ∧
        ∃ q', q.Takes n.id r.2.batch q' ∧ Sees sched n o q' s') s := by
  intro r
  refine (secures_interleave hbusy hc h slots ss p.seen).bind ?_
  rintro _ s' ⟨rfl, h'⟩
  obtain ⟨new, hnew⟩ := (Source.batchOf_draw (o.busy p) slots ss p.seen).picks.adds
  have hbatch : r.2.batch = new := hnew.batch
  have hfree : ∀ id ∈ r.2.batch, id ∉ q.projects := fun id hid hmem => by
    have hno : o.busy p id = false := (hnew.free id (hbatch ▸ hid)).symm
    rw [← hbusy, ← Bool.not_eq_true] at hno
    exact hno (JobQueue.isScheduled_iff.mpr hmem)
  refine (secures_dispatch hc _ (hbatch ▸ hnew.nodup) hfree h').bind ?_
  rintro _ s'' ⟨rfl, q', htakes, h''⟩
  exact ⟨rfl, q', htakes, h''⟩

/-! ## The steps -/

/-- What has been picked is what the queue has taken in. -/
theorem busy_after {p p' : Progress} {new : List Int} {q' : JobQueue}
    (hbusy : ∀ id, q.isScheduled id = o.busy p id) (htakes : q.Takes n.id new q')
    (hp' : p'.scheduled = p.scheduled ++ new) (id : Int) : q'.isScheduled id = o.busy p' id := by
  rw [htakes.isScheduled, hbusy, Outlook.busy, Outlook.busy, hp', List.contains_append,
    Bool.or_assoc]

/-- A tick that is late is hindered. -/
theorem Conduct.late (hc : Conduct sched n deadline others F hindered)
    (hstorages : sched.storages ≠ []) (hF : F s .uptime) (hlate : deadline ≤ s.uptime) :
    hindered := by
  refine (hc.well s .uptime hF).resolve_right fun hwell => ?_
  have hor : sched.storages.isEmpty = true ∨ decide (s.uptime < deadline) = true :=
    (Bool.or_eq_true _ _).mp hwell
  have hbefore := of_decide_eq_true
    (hor.resolve_left fun he => hstorages (List.isEmpty_iff.mp he))
  omega

/-- Steps that end where a sweep of `j` steps does; these are all unless the tick is hindered. -/
structure SweepOf (o : Outlook) (hindered : Prop) (count slots j : Nat) (p : Progress)
    (r : Ending × Progress) : Prop where
  whole : j = count ∨ hindered
  progress : r.2 = (o.sweep j slots p).2
  finished : r.1 = .finished ↔ (o.sweep j slots p).1 = .finished

/-- **The steps are a sweep**, with the room that the queue leaves, as far as they go. -/
theorem secures_steps (hl : sched.HasLease) (hstorages : sched.storages ≠ [])
    (hpage : sched.batchSize = o.pageSize) (hc : Conduct sched n deadline others F hindered) :
    ∀ (count : Nat) (p : Progress) {q : JobQueue} {s : Site},
      (∀ id, q.isScheduled id = o.busy p id) → Sees sched n o q s →
      (sched.steps n deadline count p).Secures others F (Returns hindered fun r s' =>
        (∃ j, SweepOf o hindered count (n.reposMaxCapacity.toNat - q.inFlight) j p r) ∧
          ∃ new q', r.2.scheduled = p.scheduled ++ new ∧ q.Takes n.id new q' ∧
            Sees sched n o q' s') s := by
  have hstop : ∀ {q : JobQueue} {s : Site} (p p' : Progress), p'.scheduled = p.scheduled →
      Sees sched n o q s → ∃ new q', p'.scheduled = p.scheduled ++ new ∧ q.Takes n.id new q' ∧
        Sees sched n o q' s := fun {q s} p p' hp h =>
    ⟨[], q, by rw [hp, List.append_nil], .nothing q n.id, h⟩
  intro count
  induction count with
  | zero =>
    intro p q s _ h
    exact ⟨⟨0, .inl rfl, rfl, Iff.rfl⟩, hstop p p rfl h⟩
  | succ count ih =>
    intro p q s hbusy h
    -- nothing more has been done when the tick is cut short here
    have hcut : ∀ {s'}, hindered → Sees sched n o q s' →
        (∃ j, SweepOf o hindered (count + 1) (n.reposMaxCapacity.toNat - q.inFlight) j p
          (.cutShort, p)) ∧
          ∃ new q', p.scheduled = p.scheduled ++ new ∧ q.Takes n.id new q' ∧
            Sees sched n o q' s' := fun hh h' =>
      ⟨⟨0, .inr hh, rfl, by simp [Outlook.sweep]⟩, hstop p p rfl h'⟩
    refine Secures.bind (M := fun now s' => (deadline ≤ now → hindered) ∧ Sees sched n o q s')
      (.uptime h hc.others fun s h hF => ⟨hc.late hstorages hF, h⟩) ?_
    rintro now s₁ ⟨hlate, h₁⟩
    split
    · next hle => exact hcut (hlate hle) h₁
    refine (secures_keepsLease hl hc h₁).bind ?_
    rintro held s₂ ⟨hheld, h₂⟩
    split
    · next hlost => exact hcut (hheld.resolve_left (by simpa using hlost)) h₂
    refine (secures_room hc h₂).bind ?_
    rintro slots s₃ ⟨rfl, h₃⟩
    split
    · next hslots =>
      rw [hslots]
      exact ⟨⟨count + 1, .inl rfl, rfl, Iff.rfl⟩, hstop p p rfl h₃⟩
    next hslots =>
    refine (secures_refillAll hpage hc p.sources h₃).bind ?_
    rintro _ s₄ ⟨rfl, h₄⟩
    change Secures _ _ _ (if (o.looked p).all Source.isDone = true then _ else _) _
    by_cases hdone : (o.looked p).all Source.isDone = true
    · rw [if_pos hdone]
      have hsweep := Outlook.sweep_of_done hslots count hdone
      exact ⟨⟨count + 1, .inl rfl, congrArg Prod.snd hsweep.symm, by rw [hsweep]⟩,
        hstop p _ rfl h₄⟩
    rw [if_neg hdone]
    refine (secures_fill hbusy hc h₄ _ (o.looked p)).bind ?_
    rintro _ s₅ ⟨rfl, q', htakes, h₅⟩
    change q.Takes n.id (o.batch (n.reposMaxCapacity.toNat - q.inFlight) p).2.batch q' at htakes
    have hroom : n.reposMaxCapacity.toNat - q'.inFlight = n.reposMaxCapacity.toNat - q.inFlight -
        (o.batch (n.reposMaxCapacity.toNat - q.inFlight) p).2.batch.length := by
      rw [htakes.inFlight, Nat.sub_add_eq]
    refine (ih (o.after (n.reposMaxCapacity.toNat - q.inFlight) p) (busy_after hbusy htakes rfl)
      h₅).weaken ?_
    rintro r s₆ ⟨⟨j, hwhole, hprogress, hfinished⟩, new, q'', hnew, htakes', h₆⟩
    rw [hroom, ← Outlook.sweep_of_step hslots j hdone] at hprogress hfinished
    refine ⟨⟨j + 1, hwhole.imp_left (congrArg (· + 1)), hprogress, hfinished⟩, _, q'', ?_,
      htakes.trans htakes', h₆⟩
    rw [hnew, Outlook.after, List.append_assoc]

end Parts

end Scheduler

end GeoReplication
