import GeoReplication.Proofs.Tick.FillsRoom

/-!
# Proofs/Tick/Starvation — which categories a tick serves

What a tick schedules is the beginning of an order that has nothing to do with how much room there
is (`Scheduler.order`).  A category with a project that waits is served exactly when the first of
its projects in this order comes before the room is used up, and that is so whenever the first page
behind the place where the last tick left off holds one.

When that page holds none, the category has to wait for the others to use up theirs: it goes on, or
begins again at the lowest number, only with the next step.  A backlog in another category then
takes all the room, tick after tick.
-/

namespace GeoReplication

open Source

namespace Outlook

/-- The first page of a source comes from behind the place where it begins. -/
theorem buffer_refill_begin (o : Outlook) (c : Category) (start : Int) :
    (o.refill (Source.begin c start)).buffer =
      Store.limited o.pageSize (behind (o.candidates c) start) := by
  have hdue : (Source.begin c start).isDue = true := rfl
  rw [refill, if_pos hdue, buffer_accept, cut_begin]
  rfl

end Outlook

namespace Scheduler

variable {sched : Scheduler} {n : Node} {r : Rotation} {limit : Nat} {s : Site} {q : JobQueue}
  {store : Store} {c : Category} {id : Int}

/-- **The order** in which a tick schedules what waits, as far as there is room. -/
def order (sched : Scheduler) (n : Node) (r : Rotation) (store : Store) (q : JobQueue) : List Int :=
  sched.picks n r store q store.projects.rows.length

theorem length_wanted_le (sched : Scheduler) (n : Node) (store : Store) (q : JobQueue) :
    (sched.wanted n store q).length ≤ store.projects.rows.length := by
  rw [wanted, List.length_map]
  exact List.length_filter_le _ _

/-- All that waits is in the order, once. -/
theorem order_perm_wanted (sched : Scheduler) (n : Node) (r : Rotation) (store : Store)
    (q : JobQueue) : (sched.order n r store q).Perm (sched.wanted n store q) := by
  have hlength := length_picks sched n r store q store.projects.rows.length
  rw [Nat.min_eq_right (length_wanted_le sched n store q)] at hlength
  exact (List.subperm_of_subset (nodup_picks sched n r store q _)
    (picks_subset_wanted sched n r store q _)).perm_of_length_le (Nat.le_of_eq hlength.symm)

/-- **What is picked begins the order**, whatever the room. -/
theorem picks_eq_take (sched : Scheduler) (n : Node) (r : Rotation) (store : Store) (q : JobQueue)
    (slots : Nat) : sched.picks n r store q slots = (sched.order n r store q).take slots := by
  rcases Nat.le_total slots store.projects.rows.length with hle | hge
  · obtain ⟨new, hmore, hless⟩ := Outlook.sweep_more (o := sched.outlook n store q)
      (3 * store.projects.rows.length + 4) (sched.outset n r) hle
    rw [order, picks, picks, hmore, hless]
    rfl
  · obtain ⟨new, hmore, hless⟩ := Outlook.sweep_more (o := sched.outlook n store q)
      (3 * store.projects.rows.length + 4) (sched.outset n r) hge
    have hpicks : sched.picks n r store q slots = new := hmore
    have horder : sched.order n r store q = new.take store.projects.rows.length := hless
    have hlength : new.length ≤ store.projects.rows.length := by
      rw [← hpicks, length_picks]
      exact (Nat.min_le_right _ _).trans (length_wanted_le sched n store q)
    rw [hpicks, horder, List.take_of_length_le hlength, List.take_of_length_le (hlength.trans hge)]

/-- A category is served: one of its projects got a job. -/
def Serves (sched : Scheduler) (n : Node) (store : Store) (c : Category) (ids : List Int) : Prop :=
  ∃ id ∈ ids, id ∈ store.allCandidates (sched.filter n) c

instance (sched : Scheduler) (n : Node) (store : Store) (c : Category) (ids : List Int) :
    Decidable (sched.Serves n store c ids) :=
  inferInstanceAs (Decidable (∃ id ∈ ids, id ∈ store.allCandidates (sched.filter n) c))

/-- How many projects come before the first of a category. -/
def before (sched : Scheduler) (n : Node) (r : Rotation) (store : Store) (q : JobQueue)
    (c : Category) : Nat :=
  (sched.order n r store q).findIdx fun id => (store.allCandidates (sched.filter n) c).contains id

/-- **Which categories are served**: those with a project that waits before the room is used up. -/
theorem serves_picks_iff {slots : Nat} (hc : c ∈ categories sched.config.features)
    (hid : id ∈ store.allCandidates (sched.filter n) c) (hfree : q.isScheduled id = false) :
    sched.Serves n store c (sched.picks n r store q slots) ↔
      sched.before n r store q c < slots := by
  have hmem : id ∈ sched.order n r store q := by
    rw [(order_perm_wanted sched n r store q).mem_iff, mem_wanted]
    exact ⟨hfree, c, hc, hid⟩
  have hbefore : sched.before n r store q c < (sched.order n r store q).length :=
    List.findIdx_lt_length_of_exists ⟨id, hmem, by simpa using hid⟩
  rw [Serves, picks_eq_take]
  constructor
  · rintro ⟨x, hx, hcandidate⟩
    obtain ⟨i, hi, rfl⟩ := List.mem_take_iff_getElem.mp hx
    have hle : sched.before n r store q c ≤ i := by
      by_contra hlt
      have hnot := List.not_of_lt_findIdx (Nat.not_le.mp hlt)
      rw [List.contains_iff_mem.mpr hcandidate] at hnot
      cases hnot
    omega
  · intro hlt
    refine ⟨(sched.order n r store q)[sched.before n r store q c], ?_, ?_⟩
    · exact List.mem_take_iff_getElem.mpr ⟨_, by omega, rfl⟩
    · exact List.contains_iff_mem.mp (List.findIdx_getElem (w := hbefore))

/-- A category whose first page holds a project that waits is served, if there is room for one
project of each. -/
theorem serves_of_first_page {slots : Nat} (hc : c ∈ categories sched.config.features)
    (hslots : (categories sched.config.features).length ≤ slots)
    (hid : id ∈ store.candidates (sched.filter n) c ((r.get? (n.id, c)).getD 0) sched.batchSize)
    (hfree : q.isScheduled id = false) :
    sched.Serves n store c (sched.picks n r store q slots) := by
  have hbuffer : id ∈ ((sched.outlook n store q).refill
      (Source.begin c ((r.get? (n.id, c)).getD 0))).buffer := by
    rw [Outlook.buffer_refill_begin]
    exact hid
  obtain ⟨id', hcandidate, hpicked⟩ := Outlook.served_first _
    (fun c => (r.get? (n.id, c)).getD 0) hslots _ hc hbuffer hfree
  exact ⟨id', hpicked, hcandidate⟩

/-- **Whom a tick serves**: a category with a project that waits is served exactly when fewer
projects come before its first than there is room for.  If its first page holds one and there is
room for one of each category, it is. -/
theorem tick_serves_iff (h : Unhindered sched n r limit s)
    (hq : s.queues.get? sched.queue = some q) (hc : c ∈ categories sched.config.features)
    (hid : id ∈ s.store.allCandidates (sched.filter n) c) (hfree : q.isScheduled id = false) :
    ∃ ids r' s', (sched.tick n r limit).run s = (.ok (⟨none, ids, false⟩, r'), s') ∧
      (sched.Serves n s.store c ids ↔
        sched.before n r s.store q c < n.reposMaxCapacity.toNat - q.inFlight) ∧
      ((categories sched.config.features).length ≤ n.reposMaxCapacity.toNat - q.inFlight →
        (∃ x ∈ s.store.candidates (sched.filter n) c ((r.get? (n.id, c)).getD 0) sched.batchSize,
          q.isScheduled x = false) →
        sched.Serves n s.store c ids) := by
  obtain ⟨r', s', q', hrun, -, -⟩ := h.run hq
  refine ⟨_, r', s', hrun, serves_picks_iff hc hid hfree, fun hroom hpage => ?_⟩
  obtain ⟨x, hx, hfree⟩ := hpage
  exact serves_of_first_page hc hroom hx hfree

/-! ## A backlog that starves -/

/-- Six projects, of which the last two could not be copied and the others were never copied. -/
def backlogSite : Site :=
  let project : ProjectRow := ⟨1, "p", "g/p", "default", false, none, none, none, ""⟩
  let failure : RegistryRow := ⟨PartRow.fresh.fail "" "unreachable", .fresh, ""⟩
  .start .epoch
    { Store.empty with
      nodes := (Store.Numbered.empty.insert
        ⟨⟨"http", "primary", 80, ""⟩, true, true, 25, 10, "", ""⟩).insert
        ⟨⟨"http", "secondary", 80, ""⟩, false, true, 2, 10, "", ""⟩
      projects := (List.replicate 6 project).foldl Store.Numbered.insert .empty
      registries := (Store.Table.empty.insert (2, 5) failure).insert (2, 6) failure }
    [("repositories", .empty)]

/-- A secondary with room for two jobs. -/
def backlogNode : Node :=
  ⟨2, ⟨"http", "secondary", 80, ""⟩, .secondary, true, [], 2, 10, .epoch, .epoch⟩

/-- Looks for projects that were never copied, or failed. -/
def backlogScheduler : Scheduler :=
  ⟨{ Config.standard with features := ⟨false, false, false⟩ }, ["default"], .elsewhere,
    "repositories"⟩

/-- The first tick. -/
def backlogTick : Except Failure (TickReport × Rotation) × Site :=
  backlogSite.tick backlogScheduler backlogNode .empty

/-- Where it leaves off. -/
def backlogRotation : Rotation :=
  match backlogTick.1 with
  | .ok (_, r) => r
  | .error _ => .empty

/-- Its jobs have run, the last project has been copied, and the first could not be copied again. -/
def backlogLater : Site :=
  let s := (backlogTick.2.drain backlogScheduler.config.features "repositories").2
  let s := (s.call (.recordSyncSuccess 2 6 .repository s.now)).2
  (s.call (.recordSyncFailure 2 1 .repository "unreachable")).2

theorem unhindered_backlogLater : Unhindered backlogScheduler backlogNode backlogRotation
    backlogLater.tickLimit backlogLater where
  database := by decide
  secondary := by decide
  enabled := by decide
  primary := by decide
  lease := .inr rfl
  countable := by decide
  steps := Nat.le_refl _
  goesWell := by decide

/-- Three projects come before the only one that failed. -/
theorem tick_serves_iff_backlog :
    backlogScheduler.before backlogNode backlogRotation backlogLater.store .empty .failed = 3 ∧
    ∃ ids r' s', (backlogScheduler.tick backlogNode backlogRotation backlogLater.tickLimit).run
        backlogLater = (.ok (⟨none, ids, false⟩, r'), s') ∧
      (backlogScheduler.Serves backlogNode backlogLater.store .failed ids ↔
        backlogScheduler.before backlogNode backlogRotation backlogLater.store .empty .failed <
          2 - 0) ∧
      ((categories backlogScheduler.config.features).length ≤ 2 - 0 →
        (∃ x ∈ backlogLater.store.candidates (backlogScheduler.filter backlogNode) .failed
          ((backlogRotation.get? (2, .failed)).getD 0) backlogScheduler.batchSize,
          JobQueue.empty.isScheduled x = false) →
        backlogScheduler.Serves backlogNode backlogLater.store .failed ids) := by
  have hfirst : 1 ∈ backlogLater.store.allCandidates (backlogScheduler.filter backlogNode)
      .failed := by decide
  refine ⟨by decide, ?_⟩
  exact tick_serves_iff unhindered_backlogLater (by decide) (by decide) hfirst (by decide)

/-- **A backlog starves a category**: there is room for one project of each of the two categories,
and one that failed waits, yet both jobs go to projects that were never copied. -/
theorem backlog_starves_failed :
    (backlogTick.1.map Prod.fst = .ok ⟨none, [1, 5], false⟩ ∧
      backlogTick.1.map Prod.snd = .ok backlogRotation) ∧
    Unhindered backlogScheduler backlogNode backlogRotation backlogLater.tickLimit backlogLater ∧
    backlogLater.queues.get? "repositories" = some .empty ∧
    (categories backlogScheduler.config.features).length ≤
      backlogNode.reposMaxCapacity.toNat - JobQueue.empty.inFlight ∧
    .failed ∈ categories backlogScheduler.config.features ∧
    1 ∈ backlogLater.store.allCandidates (backlogScheduler.filter backlogNode) .failed ∧
    ∃ ids, (backlogLater.tick backlogScheduler backlogNode backlogRotation).1.map Prod.fst =
        .ok ⟨none, ids, false⟩ ∧
      ¬ backlogScheduler.Serves backlogNode backlogLater.store .failed ids := by
  exact ⟨⟨by decide, rfl⟩, unhindered_backlogLater, by decide, by decide, by decide, by decide,
    [2, 3], by decide, by decide⟩

end Scheduler

end GeoReplication
