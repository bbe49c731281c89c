import GeoReplication.Proofs.Tick.Unhindered
import Mathlib.Data.List.Perm.Subperm

/-!
# Proofs/Tick/FillsRoom — a tick schedules as much as there is room for

The projects that wait for a node are those it sees on a storage that can be reached, in one of the
categories that are looked at, and not in flight (`Scheduler.wanted`).  A tick with nothing in its
way schedules as many of them as there is room for, and all of them if there is room for all:
neither the size of a page nor the places where the last tick left off matter.
-/

namespace GeoReplication.Scheduler

variable {sched : Scheduler} {n : Node} {r : Rotation} {limit : Nat} {s : Site} {q : JobQueue}
  {store : Store} {id : Int}

/-- The projects that wait for a node and are neither pending nor running. -/
def wanted (sched : Scheduler) (n : Node) (store : Store) (q : JobQueue) : List Int :=
  (store.projects.rows.filter fun row =>
    (categories sched.config.features).any (store.isCandidate (sched.filter n) · row.1 row.2) &&
      !q.isScheduled row.1).map Prod.fst

theorem nodup_wanted (sched : Scheduler) (n : Node) (store : Store) (q : JobQueue) :
    (sched.wanted n store q).Nodup :=
  store.projects.nodup.sublist (List.filter_sublist.map _)

/-- They are the free candidates of what a tick sees. -/
theorem mem_wanted : id ∈ sched.wanted n store q ↔
    (sched.outlook n store q).Free (categories sched.config.features) id := by
  have hcandidate : ∀ c, id ∈ (sched.outlook n store q).candidates c ↔
      ∃ row, (id, row) ∈ store.projects.rows ∧
        store.isCandidate (sched.filter n) c id row = true := fun c => by
    change id ∈ store.allCandidates (sched.filter n) c ↔ _
    simp only [Store.mem_allCandidates, Store.Numbered.get?_eq_some_iff]
  simp only [Outlook.Free, hcandidate, wanted, List.mem_map, List.mem_filter, Bool.and_eq_true,
    List.any_eq_true, Bool.not_eq_true', Prod.exists, exists_and_right, exists_eq_right]
  change _ ↔ q.isScheduled id = false ∧ _
  constructor
  · rintro ⟨row, hrow, ⟨c, hc, hcandidate⟩, hfree⟩
    exact ⟨hfree, c, hc, row, hrow, hcandidate⟩
  · rintro ⟨hfree, c, hc, row, hrow, hcandidate⟩
    exact ⟨row, hrow, ⟨c, hc, hcandidate⟩, hfree⟩

/-! ## What is picked -/

theorem nodup_picks (sched : Scheduler) (n : Node) (r : Rotation) (store : Store) (q : JobQueue)
    (slots : Nat) : (sched.picks n r store q slots).Nodup :=
  (swept_outset sched n r store q slots).sound.nodup

theorem picks_subset_wanted (sched : Scheduler) (n : Node) (r : Rotation) (store : Store)
    (q : JobQueue) (slots : Nat) : sched.picks n r store q slots ⊆ sched.wanted n store q :=
  fun id hid => mem_wanted.mpr ((swept_outset sched n r store q slots).sound.free id hid)

/-- With room for more than it picks a tick picks all there is. -/
theorem wanted_subset_picks {slots : Nat} (hroom : (sched.picks n r store q slots).length < slots) :
    sched.wanted n store q ⊆ sched.picks n r store q slots := by
  obtain ⟨new, hnew, -, hall⟩ := (swept_outset sched n r store q slots).fills
  have hpicks : sched.picks n r store q slots = new := hnew
  rw [hpicks] at hroom
  exact fun id hid => hall hroom id (mem_wanted.mp hid)

/-- **As many as there is room for.** -/
theorem length_picks (sched : Scheduler) (n : Node) (r : Rotation) (store : Store) (q : JobQueue)
    (slots : Nat) : (sched.picks n r store q slots).length =
      min slots (sched.wanted n store q).length := by
  obtain ⟨new, hnew, hfits, -⟩ := (swept_outset sched n r store q slots).fills
  have hpicks : sched.picks n r store q slots = new := hnew
  have hle : (sched.picks n r store q slots).length ≤ (sched.wanted n store q).length :=
    (List.subperm_of_subset (nodup_picks sched n r store q slots)
      (picks_subset_wanted sched n r store q slots)).length_le
  rw [← hpicks] at hfits
  by_cases hroom : (sched.picks n r store q slots).length < slots
  · have hge : (sched.wanted n store q).length ≤ (sched.picks n r store q slots).length :=
      (List.subperm_of_subset (nodup_wanted sched n store q) (wanted_subset_picks hroom)).length_le
    omega
  · omega

/-- **A tick with nothing in its way** schedules as many projects that wait as there is room for,
each once; their jobs come to the end of the queue in the order of the report. -/
theorem tick_fills_room (h : Unhindered sched n r limit s)
    (hq : s.queues.get? sched.queue = some q) :
    ∃ ids r' s' q', (sched.tick n r limit).run s = (.ok (⟨none, ids, false⟩, r'), s') ∧
      ids.Nodup ∧ ids ⊆ sched.wanted n s.store q ∧
      ids.length = min (n.reposMaxCapacity.toNat - q.inFlight) (sched.wanted n s.store q).length ∧
      ((sched.wanted n s.store q).length ≤ n.reposMaxCapacity.toNat - q.inFlight →
        sched.wanted n s.store q ⊆ ids) ∧
      s'.queues.get? sched.queue = some q' ∧ q.Takes n.id ids q' := by
  obtain ⟨r', s', q', hrun, hq', htakes⟩ := h.run hq
  have hnodup := nodup_picks sched n r s.store q (n.reposMaxCapacity.toNat - q.inFlight)
  have hsubset := picks_subset_wanted sched n r s.store q (n.reposMaxCapacity.toNat - q.inFlight)
  have hlength := length_picks sched n r s.store q (n.reposMaxCapacity.toNat - q.inFlight)
  refine ⟨_, r', s', q', hrun, hnodup, hsubset, hlength, fun hroom => ?_, hq', htakes⟩
  rw [Nat.min_eq_right hroom] at hlength
  have hperm := (List.subperm_of_subset hnodup hsubset).perm_of_length_le
    (Nat.le_of_eq hlength.symm)
  exact hperm.symm.subset

/-- Three projects, of which the first was never copied, the second could not be copied, and the
third is being copied. -/
def mixedSite : Site :=
  let project : ProjectRow := ⟨1, "p", "g/p", "default", false, none, none, none, ""⟩
  .start .epoch
    { Store.empty with
      nodes := Store.Numbered.empty.insert
        ⟨⟨"http", "primary", 80, ""⟩, true, true, 25, 10, "", ""⟩
      projects := ((Store.Numbered.empty.insert project).insert project).insert project
      registries := Store.Table.empty.insert (2, 2)
        ⟨PartRow.fresh.fail "" "unreachable", .fresh, ""⟩ }
    [("repositories", ⟨[], [3]⟩)]

/-- A secondary with room for three jobs. -/
def mixedNode : Node :=
  ⟨2, ⟨"http", "secondary", 80, ""⟩, .secondary, true, [], 3, 10, .epoch, .epoch⟩

/-- Looks candidates up one by one. -/
def pagingScheduler : Scheduler :=
  ⟨{ Config.standard with batchSize := 1 }, ["default"], .elsewhere, "repositories"⟩

/-- One by one, and beginning in the middle. -/
theorem tick_fills_room_mixed :
    pagingScheduler.wanted mixedNode mixedSite.store ⟨[], [3]⟩ = [1, 2] ∧
    ∃ ids r' s' q', (pagingScheduler.tick mixedNode
        (Store.Table.empty.insert (2, .neverSynced) 2) 13).run mixedSite =
        (.ok (⟨none, ids, false⟩, r'), s') ∧
      ids.Nodup ∧ ids ⊆ pagingScheduler.wanted mixedNode mixedSite.store ⟨[], [3]⟩ ∧
      ids.length = min (3 - 1)
        (pagingScheduler.wanted mixedNode mixedSite.store ⟨[], [3]⟩).length ∧
      ((pagingScheduler.wanted mixedNode mixedSite.store ⟨[], [3]⟩).length ≤ 3 - 1 →
        pagingScheduler.wanted mixedNode mixedSite.store ⟨[], [3]⟩ ⊆ ids) ∧
      s'.queues.get? "repositories" = some q' ∧ JobQueue.Takes ⟨[], [3]⟩ 2 ids q' := by
  refine ⟨by decide, ?_⟩
  have hwell : Unhindered pagingScheduler mixedNode
      (Store.Table.empty.insert (2, .neverSynced) 2) 13 mixedSite :=
    { database := by decide
      secondary := by decide
      enabled := by decide
      primary := by decide
      lease := .inr rfl
      countable := by decide
      steps := by decide
      goesWell := by decide }
  exact tick_fills_room hwell (by decide)

end GeoReplication.Scheduler
