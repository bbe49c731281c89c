import GeoReplication.Proofs.Replication.Ready
import GeoReplication.Proofs.Tick.Rotation

/-!
# Proofs/Replication/Converges — rounds leave nothing to copy

    tick ── schedules as many projects as there is room for ──▸ drain ── copies them ──▸ tick …

A round is a tick and the jobs it leaves in the queue.  What a round has copied waits no longer, and
what it has not copied waits as before (`mem_wanted_of_copied`), so every round brings the node
closer by as many projects as it has room for, until none is left (`replication_converges`).
-/

namespace GeoReplication

open Program Scheduler

/-! ## What is left -/

namespace Scheduler

variable {sched : Scheduler} {n : Node} {store store' : Store} {ids : List Int} {id : Int}

/-- With nothing in flight the projects that wait are the candidates. -/
theorem mem_wanted_empty : id ∈ sched.wanted n store .empty ↔
    ∃ p, store.projects.get? id = some p ∧
      ∃ c ∈ categories sched.config.features, store.isCandidate (sched.filter n) c id p = true := by
  have hcandidate : ∀ c, id ∈ (sched.outlook n store .empty).candidates c ↔
      ∃ p, store.projects.get? id = some p ∧ store.isCandidate (sched.filter n) c id p = true :=
    fun c => Store.mem_allCandidates
  rw [mem_wanted, Outlook.Free]
  simp only [hcandidate]
  constructor
  · rintro ⟨-, c, hc, p, hp, h⟩
    exact ⟨p, hp, c, hc, h⟩
  · rintro ⟨p, hp, c, hc, h⟩
    exact ⟨rfl, c, hc, p, hp, h⟩

/-- The copies of all parts of projects. -/
abbrev copiesOf (sched : Scheduler) (store : Store) (ids : List Int) : List (Int × Part) :=
  ids.flatMap (store.copiesOf sched.config.features.wikiSync)

theorem copiesOf_of_copied {copies : List (Int × Part)} (h : store.Copied n.id copies store')
    (ids : List Int) : sched.copiesOf store' ids = sched.copiesOf store ids :=
  congrArg ids.flatMap (funext (h.copiesOf _))

/-- **What was copied waits no longer**, and what was not copied waits as before. -/
theorem mem_wanted_of_copied (h : store.Copied n.id (sched.copiesOf store ids) store') :
    id ∈ sched.wanted n store' .empty ↔ id ∈ sched.wanted n store .empty ∧ id ∉ ids := by
  have hid : id ∉ ids → ∀ part, (id, part) ∉ sched.copiesOf store ids := fun hid part hmem => by
    obtain ⟨id', hid', hcopy⟩ := List.mem_flatMap.mp hmem
    rw [Store.fst_of_mem_copiesOf hcopy] at hid
    exact hid hid'
  rw [mem_wanted_empty, mem_wanted_empty]
  constructor
  · rintro ⟨p', hp', c, hc, hcandidate⟩
    obtain ⟨p, hp, hsame⟩ := h.project_before hp'
    by_cases hcopied : id ∈ ids
    · have hnone := Store.Copied.isCandidate_eq_false (f := sched.filter n) hp' (fun part hpart =>
        h.current id part (.inl (List.mem_flatMap.mpr ⟨id, hcopied, ?_⟩))) c
      · rw [hnone] at hcandidate
        cases hcandidate
      · rw [← h.copiesOf]
        exact Store.mem_copiesOf hp' hpart
    · refine ⟨⟨p, hp, c, hc, ?_⟩, hcopied⟩
      rwa [← Store.Copied.isCandidate (f := sched.filter n) h (hid hcopied) hsame]
  · rintro ⟨⟨p, hp, c, hc, hcandidate⟩, hcopied⟩
    obtain ⟨p', hp', hsame⟩ := h.project hp
    refine ⟨p', hp', c, hc, ?_⟩
    rwa [Store.Copied.isCandidate (f := sched.filter n) h (hid hcopied) hsame]

/-- What was copied and what is left are what there was. -/
theorem wanted_of_copied_perm (h : store.Copied n.id (sched.copiesOf store ids) store')
    (hnodup : ids.Nodup) (hids : ids ⊆ sched.wanted n store .empty) :
    (ids ++ sched.wanted n store' .empty).Perm (sched.wanted n store .empty) := by
  have hnodup' : (ids ++ sched.wanted n store' .empty).Nodup := by
    refine List.nodup_append.mpr ⟨hnodup, nodup_wanted _ _ _ _, fun id hid id' hid' he => ?_⟩
    subst he
    exact ((mem_wanted_of_copied h).mp hid').2 hid
  refine (List.perm_ext_iff_of_nodup hnodup' (nodup_wanted _ _ _ _)).mpr fun id => ?_
  rw [List.mem_append, mem_wanted_of_copied h]
  constructor
  · rintro (hid | ⟨hid, -⟩)
    · exact hids hid
    · exact hid
  · intro hid
    by_cases hcopied : id ∈ ids
    · exact .inl hcopied
    · exact .inr ⟨hid, hcopied⟩

/-- Where nothing waits a tick schedules nothing, however it goes. -/
theorem scheduled_of_none_wanted {r r' : Rotation} {limit : Nat} {s s' : Site} {h : List Moment}
    {report : TickReport} (hl : sched.HasLease) (hq : s.queues.get? sched.queue = some .empty)
    (hnone : sched.wanted n s.store .empty = [])
    (hr : (sched.tick n r limit).Reaches Site.Later s h (.done (report, r')) s')
    (hF : ∀ m ∈ h, m.site.Serves m.effect) : report.scheduled = [] := by
  obtain ⟨q', houtcome, -⟩ := tick_outcome hl hq (hr.mono fun _ _ => .of_later) fun m hm =>
    looksUp_of_serves (hF m hm)
  cases houtcome with
  | idle => rfl
  | swept steps hsweep _ =>
    subst hsweep
    have hpicks := picks_subset_wanted sched n r s.store .empty
      (n.reposMaxCapacity.toNat - JobQueue.empty.inFlight)
    rw [hnone] at hpicks
    exact List.subset_nil.mp
      (List.Subset.trans (sweep_begins_picks steps s.store _).subset hpicks)

end Scheduler

/-! ## Rounds -/

/-- A tick, and how the jobs it left in the queue ended. -/
structure Round where
  report : TickReport
  drained : Except Failure Nat

namespace Round

/-- A round: its tick, wherever its sources begin, is given its lease and not cut short, and every
effect goes well. -/
structure Runs (sched : Scheduler) (n : Node) (s : Site) (t : Round) (s' : Site) : Prop where
  run : ∃ r limit h r' s₁ h',
    (sched.tick n r limit).Reaches Site.Later s h (.done (t.report, r')) s₁ ∧
    (Attempt.drain sched.config.features sched.queue (s₁.pendingJobs sched.queue)).Reaches
      Site.Later s₁ h' (.ofExcept t.drained) s' ∧
    ∀ m ∈ h ++ h', m.site.Serves m.effect
  granted : t.report.skipped ≠ some .leaseTaken
  whole : t.report.incomplete = false

/-- All that rounds scheduled, oldest first. -/
def scheduled (log : List Round) : List Int := log.flatMap (·.report.scheduled)

theorem scheduled_concat (log : List Round) (t : Round) :
    scheduled (log ++ [t]) = scheduled log ++ t.report.scheduled := by
  simp [scheduled]

variable {sched : Scheduler} {n : Node} {s s' s'' : Site} {t : Round} {log : List Round}

/-- What a round comes to. -/
structure Step (sched : Scheduler) (n : Node) (s : Site) (t : Round) (s' : Site) : Prop where
  skipped : t.report.skipped = none
  drained : t.drained = .ok t.report.scheduled.length
  nodup : t.report.scheduled.Nodup
  wanted : t.report.scheduled ⊆ sched.wanted n s.store .empty
  length : t.report.scheduled.length =
    min n.reposMaxCapacity.toNat (sched.wanted n s.store .empty).length
  copied : s.Copied n.id (sched.copiesOf s.store t.report.scheduled) s'
  queue : s'.queues.get? sched.queue = some .empty

/-- **A round** copies as many projects as there is room for. -/
theorem Runs.step (h : t.Runs sched n s s') (hs : Ready sched n s) : Step sched n s t s' := by
  obtain ⟨report, drained⟩ := t
  obtain ⟨⟨r, limit, h, r', s₁, h', htick, hdrain, hF⟩, hgranted, hwhole⟩ := h
  dsimp only at htick hdrain hgranted hwhole
  obtain ⟨hreport, hcopied, q, hq, jobs, hjobs, hids, hnode⟩ := tick_of_ready hs htick
    (fun m hm => hF m (List.mem_append_left _ hm)) hgranted hwhole
  obtain rfl : q = ⟨jobs, []⟩ := hjobs
  have hscheduled : report.scheduled = sched.picks n r s.store .empty n.reposMaxCapacity.toNat := by
    rw [hreport]
  have hwanted : report.scheduled ⊆ sched.wanted n s.store .empty := by
    rw [hscheduled]
    exact picks_subset_wanted sched n r s.store .empty n.reposMaxCapacity.toNat
  have hpending : s₁.pendingJobs sched.queue = jobs.length := by rw [Site.pendingJobs, hq]; rfl
  have hthere : ∀ job ∈ jobs, job.nodeId = n.id ∧
      s₁.store.projects.contains job.projectId = true := fun job hjob => by
    obtain ⟨p, hp, -⟩ := mem_wanted_empty.mp (hwanted (hids ▸ List.mem_map_of_mem hjob))
    obtain ⟨p', hp', -⟩ := hcopied.store.project hp
    exact ⟨hnode job hjob, Option.isSome_iff_exists.mpr ⟨p', hp'⟩⟩
  rw [hpending] at hdrain
  obtain ⟨s₂, hlater, hend⟩ := hdrain.secures (fun m hm => hF m (List.mem_append_right _ hm))
    (Attempt.secures_drain jobs (hs.copies.copied hcopied) hq hthere)
  cases drained with
  | error f => exact hend.elim
  | ok count =>
    obtain ⟨rfl, hcopies, hempty⟩ := hend
    have hlater := Site.Later.of_reflTransGen hlater
    have hall := (hcopied.trans hcopies).later hlater
    rw [List.nil_append, ← List.flatMap_map, hids] at hall
    have hsame : sched.copiesOf s₁.store report.scheduled =
        sched.copiesOf s.store report.scheduled := copiesOf_of_copied hcopied.store _
    exact
      { skipped := by rw [hreport]
        drained := by rw [← hids, List.length_map]
        nodup := by
          rw [hscheduled]
          exact nodup_picks sched n r s.store .empty n.reposMaxCapacity.toNat
        wanted := hwanted
        length := by rw [hscheduled, length_picks]
        copied := hsame ▸ hall
        queue := by rw [hlater.queues, hempty] }

/-! ## Many rounds -/

/-- What rounds come to. -/
structure Course (sched : Scheduler) (n : Node) (s : Site) (log : List Round) (s' : Site) :
    Prop where
  rounds : ∀ t ∈ log, t.report.skipped = none ∧ t.drained = .ok t.report.scheduled.length
  nodup : (scheduled log).Nodup
  wanted : scheduled log ⊆ sched.wanted n s.store .empty
  length : (scheduled log).length =
    min (n.reposMaxCapacity.toNat * log.length) (sched.wanted n s.store .empty).length
  copied : s.Copied n.id (sched.copiesOf s.store (scheduled log)) s'
  queue : s'.queues.get? sched.queue = some .empty

namespace Course

theorem begin (hs : Ready sched n s) : Course sched n s [] s where
  rounds _ ht := absurd ht List.not_mem_nil
  nodup := List.nodup_nil
  wanted := List.nil_subset _
  length := by simp [scheduled]
  copied := .refl n.id s
  queue := hs.queue

theorem later (h : Course sched n s log s') (hl : s'.Later s'') : Course sched n s log s'' :=
  { h with
    copied := h.copied.later hl
    queue := by rw [hl.queues, h.queue] }

/-- The node stays ready. -/
theorem ready (h : Course sched n s log s') (hs : Ready sched n s) : Ready sched n s' :=
  { hs with
    queue := h.queue
    copies := hs.copies.copied h.copied }

/-- What was scheduled and what is left are what waited at the start. -/
theorem perm (h : Course sched n s log s') :
    (scheduled log ++ sched.wanted n s'.store .empty).Perm (sched.wanted n s.store .empty) :=
  wanted_of_copied_perm h.copied.store h.nodup h.wanted

/-- **A round more.** -/
theorem step (h : Course sched n s log s') (ht : Step sched n s' t s'') :
    Course sched n s (log ++ [t]) s'' where
  rounds u hu := by
    rcases List.mem_append.mp hu with hu | hu
    · exact h.rounds u hu
    · obtain rfl := List.mem_singleton.mp hu
      exact ⟨ht.skipped, ht.drained⟩
  nodup := by
    rw [scheduled_concat]
    refine List.nodup_append.mpr ⟨h.nodup, ht.nodup, fun id hid id' hid' he => ?_⟩
    subst he
    exact ((mem_wanted_of_copied h.copied.store).mp (ht.wanted hid')).2 hid
  wanted := by
    rw [scheduled_concat]
    refine List.append_subset.mpr ⟨h.wanted, fun id hid => ?_⟩
    exact ((mem_wanted_of_copied h.copied.store).mp (ht.wanted hid)).1
  length := by
    have hleft := h.perm.length_eq
    have hsofar := h.length
    have hmore := ht.length
    rw [List.length_append] at hleft
    rw [scheduled_concat, List.length_append, List.length_append, List.length_singleton,
      Nat.mul_succ]
    omega
  copied := by
    have hboth := h.copied.trans ht.copied
    rw [copiesOf_of_copied h.copied.store, ← List.flatMap_append] at hboth
    rw [scheduled_concat]
    exact hboth
  queue := ht.queue

end Course

/-- **Any number of rounds.** -/
theorem course_of_logged (hs : Ready sched n s)
    (hrun : Logged Site.Later (fun s t s' => Runs sched n s t s') s log s') :
    Course sched n s log s' :=
  hrun.inv (P := fun log s' => Course sched n s log s') (.begin hs) (fun h hl => h.later hl)
    fun h ht => h.step (ht.step (h.ready hs))

end Round

/-! ## Convergence -/

/-- **Replication converges.**  After as many rounds as the projects that wait at the start need at
full capacity, none of them waits any longer; each was scheduled in one round, each of its parts was
copied once and is current, and no tick that follows schedules anything. -/
theorem replication_converges {sched : Scheduler} {n : Node} {s s' : Site} {log : List Round}
    (hs : Ready sched n s)
    (hrun : Logged Site.Later (fun s t s' => Round.Runs sched n s t s') s log s')
    (hlong : ((sched.wanted n s.store .empty).length + n.reposMaxCapacity.toNat - 1) /
      n.reposMaxCapacity.toNat ≤ log.length) :
    sched.wanted n s'.store .empty = [] ∧
    (Round.scheduled log).Perm (sched.wanted n s.store .empty) ∧
    (∀ t ∈ log, t.report.skipped = none ∧ t.drained = .ok t.report.scheduled.length) ∧
    (∃ notes, s'.journal = s.journal ++ notes ∧
      (FetchNote.ended notes).Perm
        (sched.copiesOf s.store (sched.wanted n s.store .empty))) ∧
    (∀ id ∈ sched.wanted n s.store .empty, ∀ part,
      (id, part) ∈ s.store.copiesOf sched.config.features.wikiSync id →
        s'.store.HasCurrent n.id id part) ∧
    ∀ r limit h report r' s'',
      (sched.tick n r limit).Reaches Site.Later s' h (.done (report, r')) s'' →
      (∀ m ∈ h, m.site.Serves m.effect) → report.scheduled = [] := by
  have hcourse := Round.course_of_logged hs hrun
  have hperm := hcourse.perm
  have hlength := hcourse.length
  have hleft := hperm.length_eq
  rw [List.length_append] at hleft
  have henough : (sched.wanted n s.store .empty).length ≤
      n.reposMaxCapacity.toNat * log.length := by
    have hcapacity := hs.capacity
    rw [Nat.div_le_iff_le_mul_add_pred hcapacity] at hlong
    omega
  have hnone : sched.wanted n s'.store .empty = [] := List.length_eq_zero_iff.mp (by omega)
  rw [hnone, List.append_nil] at hperm
  refine ⟨hnone, hperm, hcourse.rounds, ?_, fun id hid part hpart => ?_, ?_⟩
  · obtain ⟨notes, hnotes, hended⟩ := hcourse.copied.journal
    refine ⟨notes, hnotes, ?_⟩
    rw [hended]
    exact hperm.flatMap_right _
  · exact hcourse.copied.store.current id part
      (.inl (List.mem_flatMap.mpr ⟨id, hperm.mem_iff.mpr hid, hpart⟩))
  · intro r limit h report r' s'' hr hF
    exact scheduled_of_none_wanted hs.lease hcourse.queue hnone hr hF

/-! ### Two rounds -/

/-- A round with nothing else going on: how its tick and its jobs ended, and the site afterwards. -/
def Round.alone (sched : Scheduler) (n : Node) (s : Site) (r : Rotation) :
    Except Failure (TickReport × Rotation) × Except Failure Nat × Site :=
  let (ticked, s) := s.tick sched n r
  (ticked, s.drain sched.config.features sched.queue)

theorem Round.runs_alone {sched : Scheduler} {n : Node} {s : Site} {r : Rotation}
    {report : TickReport} {count : Nat}
    (hreport : (alone sched n s r).1.map Prod.fst = .ok report)
    (hcount : (alone sched n s r).2.1 = .ok count)
    (htick : (sched.tick n r s.tickLimit).Throughout Site.Serves s)
    (hdrain : (Attempt.drain sched.config.features sched.queue
        ((s.tick sched n r).2.pendingJobs sched.queue)).Throughout Site.Serves
      (s.tick sched n r).2)
    (hgranted : report.skipped ≠ some .leaseTaken) (hwhole : report.incomplete = false) :
    Runs sched n s ⟨report, .ok count⟩ (alone sched n s r).2.2 := by
  obtain ⟨h, hr, hh⟩ := reaches_alone htick (Prod.ext (eq_leftOff hreport) rfl)
  obtain ⟨h', hr', hh'⟩ := reaches_alone hdrain (Prod.ext hcount rfl)
  refine ⟨⟨r, s.tickLimit, h, _, _, h', hr, hr', fun m hm => ?_⟩, hgranted, hwhole⟩
  exact (List.mem_append.mp hm).elim (hh m) (hh' m)

/-- A primary and a secondary with three projects: the first, with a wiki, was never copied, the
second could not be copied, and the third is to be copied again. -/
def staleSite : Site :=
  let project (name : String) (wiki : Bool) : Call :=
    .createProject ⟨1, name, "group/" ++ name, "default", wiki, some .epoch⟩
  let calls : List Call :=
    [.createNamespace "group" none,
      .createNode ⟨⟨"http", "primary", 80, ""⟩, .primary, true, [], 25, 10⟩,
      .createNode ⟨⟨"http", "secondary", 80, ""⟩, .secondary, true, [], 2, 10⟩,
      project "a" true, project "b" false, project "c" false,
      .recordSyncFailure 2 2 .repository "unreachable",
      .recordSyncSuccess 2 3 .repository .epoch,
      .requestResync 2 3 .repository]
  .start .epoch (calls.foldl (fun s c => (c.run .epoch s).2) .empty) [("repositories", .empty)]

/-- The first of two rounds, with room for two jobs. -/
def staleFirst : Except Failure (TickReport × Rotation) × Except Failure Nat × Site :=
  Round.alone pagingScheduler trioNode staleSite .empty

/-- The second, which goes on where the first left off. -/
def staleSecond : Except Failure (TickReport × Rotation) × Except Failure Nat × Site :=
  Round.alone pagingScheduler trioNode staleFirst.2.2 (leftOff staleFirst.1)

/-- What the rounds report. -/
def staleRounds : List Round := [⟨⟨none, [1, 2], false⟩, .ok 2⟩, ⟨⟨none, [3], false⟩, .ok 1⟩]

theorem logged_staleRounds :
    Logged Site.Later (fun s t s' => Round.Runs pagingScheduler trioNode s t s') staleSite
      staleRounds staleSecond.2.2 := by
  have hfirst : Round.Runs pagingScheduler trioNode staleSite ⟨⟨none, [1, 2], false⟩, .ok 2⟩
      staleFirst.2.2 :=
    Round.runs_alone (r := .empty) (by decide) (by decide) (by decide) (by decide) (by decide) rfl
  have hsecond : Round.Runs pagingScheduler trioNode staleFirst.2.2
      ⟨⟨none, [3], false⟩, .ok 1⟩ staleSecond.2.2 :=
    Round.runs_alone (r := leftOff staleFirst.1) (by decide) (by decide) (by decide)
      (by decide) (by decide) rfl
  exact (Logged.start.act hfirst).act hsecond

theorem ready_staleSite : Ready pagingScheduler trioNode staleSite := by
  have hcome : Store.HasCome staleSite.now Time.Instant.epoch.stored :=
    ⟨.epoch, by decide, Time.Instant.le_refl _, rfl⟩
  refine ⟨rfl, .inr rfl, rfl, rfl, by decide, rfl, by decide, by decide, ?_, ?_⟩
  · intro id p part hp text htext
    have hrows : ∀ r ∈ staleSite.store.projects.rows, ∀ part ∈ [Part.repository, .wiki],
        ∀ text ∈ r.2.updatedAt part, text = Time.Instant.epoch.stored := by decide
    have hpart : part ∈ [Part.repository, .wiki] := by cases part <;> decide
    rw [hrows _ (Store.Numbered.get?_eq_some_iff.mp hp) part hpart text htext]
    exact hcome
  · intro id row part hrow text htext
    have hrows : ∀ r ∈ staleSite.store.registries.rows, ∀ part ∈ [Part.repository, .wiki],
        ∀ text ∈ (r.2.part part).resyncAt, text = Time.Instant.epoch.stored := by decide
    have hpart : part ∈ [Part.repository, .wiki] := by cases part <;> decide
    rw [hrows _ (Store.Table.get?_eq_some_iff.mp hrow) part hpart text htext]
    exact hcome

/-- Three projects and room for two jobs: after two rounds nothing is left, and each part was copied
once. -/
theorem replication_converges_stale :
    pagingScheduler.wanted trioNode staleSite.store .empty = [1, 2, 3] ∧
    Ready pagingScheduler trioNode staleSite ∧
    Logged Site.Later (fun s t s' => Round.Runs pagingScheduler trioNode s t s') staleSite
      staleRounds staleSecond.2.2 ∧
    pagingScheduler.wanted trioNode staleSecond.2.2.store .empty = [] ∧
    ∃ notes, staleSecond.2.2.journal = staleSite.journal ++ notes ∧
      (FetchNote.ended notes).Perm
        [(1, .repository), (1, .wiki), (2, .repository), (3, .repository)] := by
  have hwanted : pagingScheduler.wanted trioNode staleSite.store .empty = [1, 2, 3] := by decide
  obtain ⟨hnone, -, -, hcopies, -⟩ := replication_converges ready_staleSite logged_staleRounds
    (by rw [hwanted]; decide)
  rw [hwanted] at hcopies
  exact ⟨hwanted, ready_staleSite, logged_staleRounds, hnone, hcopies⟩

end GeoReplication
