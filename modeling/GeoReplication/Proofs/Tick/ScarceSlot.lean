import GeoReplication.Proofs.Tick.Rotation
import GeoReplication.Proofs.Tick.SharedQueue
import GeoReplication.Proofs.Tick.Starvation

/-!
# Proofs/Tick/ScarceSlot — ticks with room for one job

    page by page:   never copied ── failed ── not up to date ──▸ never copied ── …
                          ╰── the first free candidate takes the slot

A round of turns begins with the projects that were never copied.  With room for one job it ends
with the first source whose next page holds a free candidate, and the tick with it
(`Outlook.choice`, `sweep_one`).  Nothing of this is carried to the next tick: the rotation
remembers where each category left off, but not whose turn it was.  So a category is served by the
ticks that choose one of its candidates, and a backlog of projects that were never copied takes the
slot again and again, each time behind the place where the last tick left off (`scarce_slot`).
-/

namespace GeoReplication

open Scheduler Source

namespace Source

variable {busy : Int → Bool}

/-! ## Room for one -/

/-- A source after handing out all that it holds. -/
def drained (s : Source) : Source := s.handOut s.buffer.length

/-- The first number in the buffer that is not busy. -/
def firstFree (busy : Int → Bool) (s : Source) : Option Int := s.buffer.find? fun id => !busy id

@[simp] theorem buffer_drained (s : Source) : s.drained.buffer = [] :=
  List.drop_eq_nil_of_le (Nat.le_refl _)

theorem drained_of_empty {s : Source} (hempty : s.buffer = []) : s.drained = s := by
  simp only [drained, handOut, hempty, List.length_nil, List.take_nil, List.drop_nil,
    List.getLast?_nil, Option.none_or]
  rw [← hempty]

section Turn

variable {s : Source} {id : Int} {rest : List Int}

theorem firstFree_of_busy (hs : s.buffer = id :: rest) (hbusy : busy id = true) :
    s.firstFree busy = (s.pop id rest).firstFree busy := by
  rw [firstFree, hs, List.find?_cons_of_neg (by simp [hbusy])]
  rfl

theorem firstFree_of_free (hs : s.buffer = id :: rest) (hfree : ¬ busy id = true) :
    s.firstFree busy = some id := by
  rw [firstFree, hs, List.find?_cons_of_pos (by simp [hfree])]

theorem turnFrom_of_busy (hbusy : busy id = true) :
    turnFrom (m := Id) busy s ⟨[], []⟩ (id :: rest) =
      turnFrom (m := Id) busy (s.pop id rest) ⟨[], []⟩ rest := if_pos hbusy

theorem turnFrom_of_free (hfree : ¬ busy id = true) :
    turnFrom (m := Id) busy s ⟨[], []⟩ (id :: rest) = (s.pop id rest, ⟨[id], [id]⟩) := if_neg hfree

theorem drained_pop (hs : s.buffer = id :: rest) : (s.pop id rest).drained = s.drained := by
  have hpop : s.pop id rest = s.handOut 1 := by simp [Source.pop, handOut, hs]
  rw [drained, drained, hs, hpop, handOut_handOut, buffer_handOut, hs, List.length_cons,
    Nat.add_comm]
  rfl

end Turn

/-- The first turn hands out all that is busy, and picks what comes then. -/
theorem turnFrom_first (busy : Int → Bool) : ∀ (ids : List Int) (s : Source), s.buffer = ids →
    (turnFrom (m := Id) busy s ⟨[], []⟩ ids).2 =
        ⟨(s.firstFree busy).toList, (s.firstFree busy).toList⟩ ∧
      (s.firstFree busy = none → (turnFrom (m := Id) busy s ⟨[], []⟩ ids).1 = s.drained)
  | [], s, hs => by
      have hnone : s.firstFree busy = none := by rw [firstFree, hs, List.find?_nil]
      rw [hnone]
      exact ⟨rfl, fun _ => (drained_of_empty hs).symm⟩
  | id :: rest, s, hs => by
      by_cases hbusy : busy id = true
      · rw [turnFrom_of_busy hbusy, firstFree_of_busy hs hbusy, ← drained_pop hs]
        exact turnFrom_first busy rest (s.pop id rest) rfl
      · rw [turnFrom_of_free hbusy, firstFree_of_free hs hbusy]
        exact ⟨rfl, by rintro ⟨⟩⟩

theorem round_first (busy : Int → Bool) : ∀ ss : List Source,
    (round (m := Id) busy 1 ss ⟨[], []⟩).2 =
        ⟨(ss.findSome? (firstFree busy)).toList, (ss.findSome? (firstFree busy)).toList⟩ ∧
      (ss.findSome? (firstFree busy) = none →
        (round (m := Id) busy 1 ss ⟨[], []⟩).1 = ss.map drained)
  | [] => ⟨rfl, fun _ => rfl⟩
  | s :: ss => by
      have hturn : (turn (m := Id) busy s ⟨[], []⟩).2 =
            ⟨(s.firstFree busy).toList, (s.firstFree busy).toList⟩ ∧
          (s.firstFree busy = none → (turn (m := Id) busy s ⟨[], []⟩).1 = s.drained) :=
        turnFrom_first busy s.buffer s rfl
      rw [round_of_room (by simp), List.findSome?_cons]
      cases hfree : s.firstFree busy with
      | none =>
        rw [hfree] at hturn
        obtain ⟨hpicked, hrest⟩ := round_first busy ss
        obtain ⟨hnothing, hdrained⟩ := hturn
        rw [hnothing, hdrained rfl]
        exact ⟨hpicked, fun hnone => congrArg _ (hrest hnone)⟩
      | some id =>
        rw [hfree] at hturn
        rw [hturn.1, round_of_full (Nat.le_refl 1)]
        exact ⟨rfl, by rintro ⟨⟩⟩

/-- A source that has a free number hands out all before it, and that. -/
theorem turnFrom_of_firstFree {id : Int} : ∀ (ids : List Int) {s : Source}, s.buffer = ids →
    s.firstFree busy = some id → ∃ passed rest, ids = passed ++ id :: rest ∧
      (turnFrom (m := Id) busy s ⟨[], []⟩ ids).1 = s.pop id rest
  | [], s, hs, hfirst => by
      rw [firstFree, hs, List.find?_nil] at hfirst
      cases hfirst
  | x :: rest, s, hs, hfirst => by
      by_cases hbusy : busy x = true
      · rw [firstFree_of_busy hs hbusy] at hfirst
        obtain ⟨passed, rest', rfl, hturn⟩ := turnFrom_of_firstFree rest rfl hfirst
        rw [turnFrom_of_busy hbusy]
        exact ⟨x :: passed, rest', rfl, hturn⟩
      · rw [firstFree_of_free hs hbusy] at hfirst
        obtain rfl := Option.some.inj hfirst
        rw [turnFrom_of_free hbusy]
        exact ⟨[], rest, rfl, rfl⟩

/-- **A batch of one** is one round. -/
theorem draw_one (busy : Int → Bool) (ss : List Source) :
    draw busy 1 ss [] = round (m := Id) busy 1 ss ⟨[], []⟩ := by
  obtain ⟨hpicked, hdrained⟩ := round_first busy ss
  change rounds (m := Id) busy 1 (buffered ss) ss ⟨[], []⟩ = _
  by_cases hzero : buffered ss = 0
  · have hempty := forall_buffer_eq_nil hzero
    have hnone : ss.findSome? (firstFree busy) = none :=
      List.findSome?_eq_none_iff.mpr fun s hs => by rw [firstFree, hempty s hs, List.find?_nil]
    have hsame : ss.map drained = ss :=
      (List.map_congr_left fun s hs => drained_of_empty (hempty s hs)).trans (List.map_id _)
    rw [hnone] at hpicked hdrained
    rw [rounds_of_empty hempty]
    exact Prod.ext ((hdrained rfl).trans hsame).symm hpicked.symm
  · obtain ⟨count, hcount⟩ := Nat.exists_eq_succ_of_ne_zero hzero
    rw [hcount, rounds_of_room Nat.one_pos hzero]
    cases hfree : ss.findSome? (firstFree busy) with
    | none =>
      have hempty : ∀ s ∈ ss.map drained, s.buffer = [] := by simp
      rw [hdrained hfree]
      exact (rounds_of_empty hempty _ count).trans (Prod.ext (hdrained hfree).symm rfl)
    | some id =>
      rw [hfree] at hpicked
      exact rounds_full (by rw [hpicked]; exact Nat.le_refl 1) _ count

/-- A page begins with the lowest of the numbers it is to hold. -/
theorem exists_page_begins {all : List Int} {size : Nat} {start last : Int}
    (hasc : all.Pairwise (· < ·)) (hsize : 0 < size) (hlast : last ∈ all) (hstart : start < last) :
    ∃ id page, Store.limited size (behind all start) = id :: page ∧ id ∈ all ∧ id ≤ last := by
  have hbehind : last ∈ behind all start := List.mem_filter.mpr ⟨hlast, decide_eq_true hstart⟩
  have hsorted : (behind all start).Pairwise (· < ·) := hasc.sublist List.filter_sublist
  obtain ⟨rest, hleg, hshort⟩ := isPage_limited size (behind all start)
  cases hpage : Store.limited size (behind all start) with
  | nil =>
    rw [hpage] at hleg hshort
    rw [hleg, hshort hsize] at hbehind
    exact absurd hbehind List.not_mem_nil
  | cons id page =>
    rw [hpage] at hleg
    have hid : id ∈ behind all start := by
      rw [hleg]
      exact List.mem_cons_self
    refine ⟨id, page, rfl, (List.mem_filter.mp hid).1, ?_⟩
    rw [hleg] at hbehind hsorted
    rcases List.mem_cons.mp hbehind with rfl | hmem
    · exact Int.le_refl _
    · exact Int.le_of_lt ((List.pairwise_cons.mp hsorted).1 last hmem)

end Source

namespace Outlook

variable {o : Outlook} {p : Progress} {ss : List Source}

/-- The first free candidate on the next page of a source. -/
def offer (o : Outlook) (s : Source) : Option Int := (o.refill s).firstFree o.inFlight

/-- **Who takes the only slot**, if it is taken within `pages` look-ups of each source: page by page
the first source in turn that has an offer. -/
def choice (o : Outlook) : (pages : Nat) → List Source → Option Int
  | 0, _ => none
  | pages + 1, ss =>
    (ss.findSome? o.offer).or (o.choice pages (ss.map fun s => (o.refill s).drained))

theorem choice_succ (o : Outlook) (pages : Nat) (ss : List Source) :
    o.choice (pages + 1) ss =
      (ss.findSome? o.offer).or (o.choice pages (ss.map fun s => (o.refill s).drained)) := rfl

theorem choice_of_done : ∀ (pages : Nat) {ss : List Source}, (∀ s ∈ ss, s.isDone = true) →
    o.choice pages ss = none
  | 0, _, _ => rfl
  | pages + 1, ss, hdone => by
      have hsame : ∀ s ∈ ss, o.refill s = s := fun s hs =>
        refill_of_exhausted (isDone_iff.mp (hdone s hs)).1
      have hnone : ss.findSome? o.offer = none := List.findSome?_eq_none_iff.mpr fun s hs => by
        rw [offer, hsame s hs, firstFree, (isDone_iff.mp (hdone s hs)).2, List.find?_nil]
      have hstays : ss.map (fun s => (o.refill s).drained) = ss :=
        (List.map_congr_left fun s hs => (congrArg drained (hsame s hs)).trans
          (drained_of_empty (isDone_iff.mp (hdone s hs)).2)).trans (List.map_id _)
      rw [choice_succ, hnone, hstays, Option.none_or]
      exact choice_of_done pages hdone

/-- A source that is done after its look-up has nothing to offer. -/
theorem no_offer_of_done (hdone : (o.looked p).all Source.isDone = true) :
    p.sources.findSome? o.offer = none := by
  have hlooked := List.all_eq_true.mp hdone
  exact List.findSome?_eq_none_iff.mpr fun s hs => by
    rw [offer, firstFree, (isDone_iff.mp (hlooked _ (List.mem_map_of_mem hs))).2, List.find?_nil]

/-- The first step of a sweep with room for one. -/
theorem batch_one (hseen : p.seen = []) (hscheduled : p.scheduled = []) :
    o.batch 1 p = round (m := Id) o.inFlight 1 (o.looked p) ⟨[], []⟩ := by
  have hbusy : o.busy p = o.inFlight := by
    funext id
    rw [busy, hscheduled]
    exact Bool.or_false _
  rw [batch, hbusy, hseen, draw_one]

theorem findSome?_looked (o : Outlook) (p : Progress) :
    (o.looked p).findSome? (firstFree o.inFlight) = p.sources.findSome? o.offer :=
  List.findSome?_map

/-- **A sweep with room for one** dispatches the choice. -/
theorem sweep_one : ∀ (count : Nat) {p : Progress}, p.seen = [] → p.scheduled = [] →
    (o.sweep count 1 p).1 = .finished →
    (o.sweep count 1 p).2.scheduled = (o.choice count p.sources).toList
  | 0, _, _, _, hfin => by cases hfin
  | count + 1, p, hseen, hscheduled, hfin => by
      by_cases hdone : (o.looked p).all Source.isDone = true
      · have hlooked := List.all_eq_true.mp hdone
        have hpass : p.sources.map (fun s => (o.refill s).drained) = o.looked p :=
          List.map_congr_left fun s hs => drained_of_empty
            (isDone_iff.mp (hlooked _ (List.mem_map_of_mem hs))).2
        rw [sweep_of_done Nat.one_ne_zero count hdone, choice_succ, no_offer_of_done hdone, hpass,
          choice_of_done _ hlooked]
        exact hscheduled
      · rw [sweep_of_step Nat.one_ne_zero count hdone] at hfin ⊢
        obtain ⟨hpicked, hdrained⟩ := round_first o.inFlight (o.looked p)
        rw [findSome?_looked] at hpicked hdrained
        rw [Outlook.after, batch_one hseen hscheduled, hpicked, hscheduled] at hfin ⊢
        rw [choice_succ]
        cases hoffer : p.sources.findSome? o.offer with
        | none =>
          rw [hoffer, hdrained hoffer] at hfin
          rw [hdrained hoffer]
          refine (sweep_one count rfl rfl hfin).trans ?_
          rw [looked, List.map_map]
          rfl
        | some id => exact scheduled_of_full o count _

/-- With an offer at the first look-up it takes one round. -/
theorem sources_sweep_one {count : Nat} {id : Int} (hseen : p.seen = [])
    (hscheduled : p.scheduled = []) (hoffer : p.sources.findSome? o.offer = some id)
    (hfin : (o.sweep count 1 p).1 = .finished) :
    (o.sweep count 1 p).2.sources = (round (m := Id) o.inFlight 1 (o.looked p) ⟨[], []⟩).1 := by
  obtain ⟨count, rfl⟩ : ∃ c, count = c + 1 := by
    cases count with
    | zero => cases hfin
    | succ count => exact ⟨count, rfl⟩
  have hdone : ¬ (o.looked p).all Source.isDone = true := fun hdone => by
    rw [no_offer_of_done hdone] at hoffer
    cases hoffer
  obtain ⟨hpicked, -⟩ := round_first o.inFlight (o.looked p)
  rw [findSome?_looked, hoffer] at hpicked
  rw [sweep_of_step Nat.one_ne_zero count hdone, Outlook.after, batch_one hseen hscheduled, hpicked]
  cases count <;> rfl

/-- The category that has the first turn, with an offer at its first look-up. -/
theorem head_sweep_one {cs : List Category} (start : Category → Int) {count : Nat} {c : Category}
    {id : Int} (hoffer : o.offer (Source.begin c (start c)) = some id)
    (hfin : (o.sweep count 1 (outset (c :: cs) start)).1 = .finished) :
    ∃ passed rest ss, (o.refill (Source.begin c (start c))).buffer = passed ++ id :: rest ∧
      (o.sweep count 1 (outset (c :: cs) start)).2.sources =
        (o.refill (Source.begin c (start c))).pop id rest :: ss := by
  have hfirst : (outset (c :: cs) start).sources.findSome? o.offer = some id := by
    rw [outset, List.map_cons, List.findSome?_cons, hoffer]
  obtain ⟨passed, rest, hbuffer, hturn⟩ := turnFrom_of_firstFree _ rfl hoffer
  have hlooked : o.looked (outset (c :: cs) start) =
      o.refill (Source.begin c (start c)) :: o.looked (outset cs start) := rfl
  have hsources := sources_sweep_one rfl rfl hfirst hfin
  rw [hlooked, round_of_room (by simp)] at hsources
  exact ⟨passed, rest, _, hbuffer, hsources.trans (congrArg (· :: _) hturn)⟩

/-- Where a source picks up that has handed out a part of its first page, if a candidate follows. -/
theorem resumeAfter_pop {c : Category} {start id last : Int} {passed rest : List Int}
    (hbuffer : (o.refill (Source.begin c start)).buffer = passed ++ id :: rest)
    (hlast : last ∈ o.candidates c) (hid : id < last) :
    ((o.refill (Source.begin c start)).pop id rest).resumeAfter = id := by
  have hmore : ((o.refill (Source.begin c start)).pop id rest).isDone ≠ true := fun hdone => by
    obtain ⟨hexhausted, hrest⟩ := isDone_iff.mp hdone
    change (o.refill (Source.begin c start)).exhausted = true at hexhausted
    change rest = [] at hrest
    -- nothing is to come, so the candidate that follows is on the page
    have hkeeps := buffer_append_toCome_refill (o := o) (s := Source.begin c start) rfl
    have hnone : o.toCome (o.refill (Source.begin c start)) = [] := by
      rw [toCome, Source.toCome, if_pos hexhausted]
    rw [hnone, List.append_nil, hbuffer, hrest] at hkeeps
    have hpage : last ∈ passed ++ [id] := by
      rw [hkeeps]
      exact (mem_toCome_begin (o.ascending c) (o.positive c) c start).mpr hlast
    obtain ⟨leg, hleg, -⟩ := isPage_limited o.pageSize (behind (o.candidates c) start)
    rw [← buffer_refill_begin, hbuffer, hrest] at hleg
    have hsorted : (passed ++ [id]).Pairwise (· < ·) :=
      ((o.ascending c).sublist List.filter_sublist).sublist
        (hleg ▸ List.sublist_append_left _ leg)
    rcases List.mem_append.mp hpage with hpassed | hmem
    · have := (List.pairwise_append.mp hsorted).2.2 last hpassed id (List.mem_singleton_self id)
      omega
    · have := List.mem_singleton.mp hmem
      omega
  rw [resumeAfter, if_neg hmore]
  rfl

end Outlook

namespace Scheduler

variable {sched : Scheduler} {n : Node} {r : Rotation} {store : Store} {q : JobQueue}

/-- **Who takes the only slot** of a tick. -/
def choice (sched : Scheduler) (n : Node) (r : Rotation) (store : Store) (q : JobQueue) :
    Option Int :=
  (sched.outlook n store q).choice (3 * store.projects.rows.length + 4) (sched.outset n r).sources

theorem picks_one (sched : Scheduler) (n : Node) (r : Rotation) (store : Store) (q : JobQueue) :
    sched.picks n r store q 1 = (sched.choice n r store q).toList :=
  Outlook.sweep_one _ rfl rfl (swept_outset sched n r store q 1).finished

end Scheduler

/-- A tick that finds room for one job: what it sees, and its report. -/
structure Vacancy where
  sched : Scheduler
  node : Node
  rotation : Rotation
  store : Store
  queue : JobQueue
  report : TickReport

namespace Vacancy

/-- Who takes the slot. -/
def choice (t : Vacancy) : Option Int := t.sched.choice t.node t.rotation t.store t.queue

/-- The candidates of a category. -/
def candidates (t : Vacancy) (c : Category) : List Int :=
  t.store.allCandidates (t.sched.filter t.node) c

/-- The first free candidate on the page that a category looks up first. -/
def offer (t : Vacancy) (c : Category) : Option Int :=
  (t.store.candidates (t.sched.filter t.node) c ((t.rotation.get? (t.node.id, c)).getD 0)
    t.sched.batchSize).find? fun id => !t.queue.isScheduled id

/-- A candidate of the category is neither pending nor running. -/
def Waits (t : Vacancy) (c : Category) : Prop :=
  ∃ id ∈ t.candidates c, t.queue.isScheduled id = false

instance (t : Vacancy) (c : Category) : Decidable (t.Waits c) :=
  inferInstanceAs (Decidable (∃ id ∈ t.candidates c, t.queue.isScheduled id = false))

/-- A candidate of the category got the slot. -/
def Serves (t : Vacancy) (c : Category) : Prop :=
  t.sched.Serves t.node t.store c t.report.scheduled

instance (t : Vacancy) (c : Category) : Decidable (t.Serves c) :=
  inferInstanceAs (Decidable (t.sched.Serves t.node t.store c t.report.scheduled))

/-- The tick of a node that left off at `r` ends at `r'`: there was room for one job, and every
category had a candidate for it, which others left alone meanwhile; no look-up failed, and the tick
was not cut short. -/
structure Runs (nodeId : Int) (r : Rotation) (t : Vacancy) (r' : Rotation) : Prop where
  node : t.node.id = nodeId
  rotation : t.rotation = r
  lease : t.sched.HasLease
  run : ∃ limit s h s', s.store = t.store ∧ s.queues.get? t.sched.queue = some t.queue ∧
    (t.sched.tick t.node r limit).Reaches (Aside t.sched t.node) s h (.done (t.report, r')) s' ∧
    ∀ m ∈ h, Scheduler.LooksUp m.site m.effect
  room : t.node.reposMaxCapacity.toNat - t.queue.inFlight = 1
  waits : ∀ c ∈ categories t.sched.config.features, t.Waits c
  begun : t.report.skipped = none
  whole : t.report.incomplete = false

/-- The rotation stays where it is for a node. -/
def Stays (nodeId : Int) (r r' : Rotation) : Prop := ∀ c, Shift.Stays nodeId c r r'

variable {nodeId : Int} {r r' : Rotation} {t : Vacancy} {c : Category} {id : Int}

/-- Projects that were never copied have the first turn. -/
theorem outset_eq (sched : Scheduler) (n : Node) (r : Rotation) :
    sched.outset n r = Outlook.outset
      (.neverSynced :: .failed :: if sched.config.features.dirtyRefresh then [.dirty] else [])
      fun c => (r.get? (n.id, c)).getD 0 := rfl

theorem offer_eq (t : Vacancy) (c : Category) : t.offer c =
    (t.sched.outlook t.node t.store t.queue).offer
      (Source.begin c ((t.rotation.get? (t.node.id, c)).getD 0)) := by
  rw [Outlook.offer, firstFree, Outlook.buffer_refill_begin]
  rfl

/-- The first category in turn that has an offer gets the slot. -/
theorem choice_of_offer
    (hoffer : (categories t.sched.config.features).findSome? t.offer = some id) :
    t.choice = some id := by
  have hoffers : (t.sched.outset t.node t.rotation).sources.findSome?
      (t.sched.outlook t.node t.store t.queue).offer = some id := by
    rw [← hoffer, outset, Outlook.outset, List.findSome?_map]
    exact congrArg (List.findSome? · _) (funext fun c => (t.offer_eq c).symm)
  rw [choice, Scheduler.choice, Outlook.choice_succ, hoffers, Option.some_or]

theorem findSome?_offer_of_neverSynced (hoffer : t.offer .neverSynced = some id) :
    (categories t.sched.config.features).findSome? t.offer = some id := by
  rw [categories, List.cons_append, List.findSome?_cons, hoffer]

/-- A tick was a sweep with room for one, and has picked one. -/
theorem Runs.swept (h : t.Runs nodeId r r') : ∃ steps result,
    (t.sched.outlook t.node t.store t.queue).sweep steps 1 (t.sched.outset t.node t.rotation) =
      (.finished, result) ∧
    t.report.scheduled = result.scheduled ∧ result.scheduled.length = 1 ∧
    (result.sources.map (·.category)).Nodup ∧
    r' = remember t.node result.sources t.rotation := by
  obtain ⟨sched, n, r, store, q, report⟩ := t
  obtain ⟨rfl, rfl, hl, ⟨limit, s, h, s', rfl, hq, hr, hF⟩, hroom, hwaits, hbegun, hwhole⟩ := h
  dsimp only at hl hq hr hroom hwaits hbegun hwhole ⊢
  obtain ⟨id, hid, hfree⟩ := hwaits .neverSynced List.mem_cons_self
  have hwanted : id ∈ sched.wanted n s.store q :=
    mem_wanted.mpr ⟨hfree, .neverSynced, List.mem_cons_self, hid⟩
  have hone : (sched.picks n r s.store q 1).length = 1 := by
    rw [length_picks]
    exact Nat.min_eq_left (List.length_pos_of_mem hwanted)
  obtain ⟨q', houtcome, -⟩ := tick_outcome hl hq hr hF
  cases houtcome with
  | idle skipped hidle =>
    rw [picks_of_no_storages (hidle hbegun)] at hone
    cases hone
  | swept steps hsweep _ =>
    subst hsweep
    have hfin := not_not.mp (of_decide_eq_false hwhole)
    rw [hroom] at hfin ⊢
    refine ⟨steps, _, Prod.ext hfin rfl, rfl, ?_, ?_, rfl⟩
    · rw [sweep_of_finished hfin]
      exact hone
    · rw [Shift.categories_sweep_outset]
      exact Shift.nodup_categories _

/-- **The slot goes to the choice.** -/
theorem Runs.scheduled (h : t.Runs nodeId r r') :
    ∃ id, t.choice = some id ∧ t.report.scheduled = [id] := by
  obtain ⟨steps, result, hsweep, hreport, hone, -, -⟩ := h.swept
  have hscheduled : result.scheduled = t.choice.toList := by
    rw [choice, ← picks_one, ← sweep_of_finished (congrArg Prod.fst hsweep), hsweep]
  rw [hreport]
  rw [hscheduled] at hone ⊢
  cases hchoice : t.choice with
  | none =>
    rw [hchoice] at hone
    cases hone
  | some id => exact ⟨id, rfl, rfl⟩

theorem Runs.serves_iff (h : t.Runs nodeId r r') :
    t.Serves c ↔ ∃ id, t.choice = some id ∧ id ∈ t.candidates c := by
  obtain ⟨id, hchoice, hscheduled⟩ := h.scheduled
  rw [Serves, Scheduler.Serves, hscheduled, hchoice]
  constructor
  · rintro ⟨x, hx, hcandidate⟩
    obtain rfl := List.mem_singleton.mp hx
    exact ⟨x, rfl, hcandidate⟩
  · rintro ⟨x, hx, hcandidate⟩
    obtain rfl := Option.some.inj hx
    exact ⟨id, List.mem_singleton_self id, hcandidate⟩

/-! ### A backlog of projects that were never copied -/

/-- A project that was never copied waits for the slot and does not get it, and no project of its
kind is pending or running. -/
structure PassesOver (t : Vacancy) (last : Int) : Prop where
  waits : last ∈ t.candidates .neverSynced
  passed : last ∉ t.report.scheduled
  free : ∀ id ∈ t.candidates .neverSynced, t.queue.isScheduled id = false

/-- Behind the place where they left off there is an offer. -/
theorem exists_offer {last : Int} (hlast : last ∈ t.candidates c)
    (hplace : Shift.place t.node.id c t.rotation < last)
    (hfree : ∀ id ∈ t.candidates c, t.queue.isScheduled id = false) :
    ∃ id, t.offer c = some id ∧ id ∈ t.candidates c ∧ id ≤ last := by
  obtain ⟨id, page, hpage, hid, hle⟩ := exists_page_begins (t.store.allCandidates_pairwise _ c)
    (Nat.le_max_right t.sched.config.batchSize 1) hlast hplace
  have hoffer : t.offer c = (id :: page).find? fun id => !t.queue.isScheduled id :=
    congrArg (List.find? _) hpage
  exact ⟨id, by rw [hoffer, List.find?_cons_of_pos (by rw [hfree id hid]; rfl)], hid, hle⟩

/-- After a tick that serves projects that were never copied they go on behind the one that got the
slot, while another follows. -/
theorem Runs.place_of_offer {last : Int} (h : t.Runs nodeId r r')
    (hoffer : t.offer .neverSynced = some id) (hlast : last ∈ t.candidates .neverSynced)
    (hid : id < last) : Shift.place nodeId .neverSynced r' = id := by
  obtain ⟨steps, result, hsweep, -, -, hnodup, rfl⟩ := h.swept
  obtain rfl := h.node
  rw [offer_eq] at hoffer
  rw [outset_eq] at hsweep
  obtain ⟨passed, rest, ss, hbuffer, hsources⟩ := Outlook.head_sweep_one
    (fun c => (t.rotation.get? (t.node.id, c)).getD 0) hoffer (congrArg Prod.fst hsweep)
  rw [hsweep] at hsources
  dsimp only at hsources
  have hplace := get?_remember (n := t.node) result.sources t.rotation hnodup _
    (hsources ▸ List.mem_cons_self)
  rw [Outlook.resumeAfter_pop hbuffer hlast hid, Source.pop, Outlook.category_refill] at hplace
  exact congrArg (·.getD 0) hplace

/-- While a project is passed over that was never copied, another of its kind gets the slot. -/
theorem Runs.step_of_passesOver {last : Int} (h : t.Runs nodeId r r') (hpasses : t.PassesOver last)
    (hplace : Shift.place nodeId .neverSynced r < last) :
    (∃ id ∈ t.candidates .neverSynced, t.report.scheduled = [id]) ∧
      Shift.place nodeId .neverSynced r' < last := by
  obtain rfl := h.node
  obtain rfl := h.rotation
  obtain ⟨id, hoffer, hcandidate, hle⟩ := exists_offer hpasses.waits hplace hpasses.free
  obtain ⟨x, hchoice, hscheduled⟩ := h.scheduled
  rw [choice_of_offer (findSome?_offer_of_neverSynced hoffer)] at hchoice
  obtain rfl := Option.some.inj hchoice
  have hne : id ≠ last := by
    rintro rfl
    exact hpasses.passed (hscheduled ▸ List.mem_cons_self)
  have hid : id < last := by omega
  refine ⟨⟨id, hcandidate, hscheduled⟩, ?_⟩
  rw [h.place_of_offer hoffer hpasses.waits hid]
  exact hid

/-- **A backlog keeps the slot**: as long as a project that was never copied is passed over, each
tick serves another of its kind. -/
theorem backlog_of_logged {last : Int} {log : List Vacancy}
    (hrun : Logged (Stays nodeId) (Runs nodeId) r log r')
    (hplace : Shift.place nodeId .neverSynced r < last) (hlog : ∀ t ∈ log, t.PassesOver last) :
    (∀ t ∈ log, ∃ id ∈ t.candidates .neverSynced, t.report.scheduled = [id]) ∧
      Shift.place nodeId .neverSynced r' < last := by
  induction hrun with
  | start => exact ⟨List.forall_mem_nil _, hplace⟩
  | quiet _ hstays ih =>
    rw [Shift.place_of_stays (hstays .neverSynced)]
    exact ih hlog
  | @act log t r₁ r₂ _ hact ih =>
    obtain ⟨hbefore, hplace⟩ := ih fun t ht => hlog t (List.mem_append_left _ ht)
    obtain ⟨hserved, hplace⟩ := hact.step_of_passesOver (hlog t List.mem_concat_self) hplace
    exact ⟨List.forall_mem_append.mpr ⟨hbefore, List.forall_mem_singleton.mpr hserved⟩, hplace⟩

/-- Every tick of a run of ticks ran. -/
theorem runs_of_logged {log : List Vacancy} (hrun : Logged (Stays nodeId) (Runs nodeId) r log r')
    (ht : t ∈ log) : ∃ r₁ r₂, t.Runs nodeId r₁ r₂ := by
  obtain ⟨before, after, rfl⟩ := List.append_of_mem ht
  obtain ⟨r₁, r₂, -, h, -⟩ := hrun.split_cons
  exact ⟨r₁, r₂, h⟩

end Vacancy

/-- **Who gets a scarce slot**: in every tick the choice, which is the offer of the first category
in turn that has one.  So a category is served within any three ticks in a row exactly if among
their choices is one of its candidates.  As long as a project that was never copied is passed over
behind the place where the first tick began, each tick serves another of its kind, however many
ticks there are. -/
theorem scarce_slot {nodeId : Int} {r r' : Rotation} {log : List Vacancy}
    (hrun : Logged (Vacancy.Stays nodeId) (Vacancy.Runs nodeId) r log r') :
    (∀ t ∈ log, ∃ id, t.choice = some id ∧ t.report.scheduled = [id]) ∧
    (∀ t ∈ log, ∀ id, (categories t.sched.config.features).findSome? t.offer = some id →
      t.choice = some id) ∧
    (∀ c, (∀ three, three <:+: log → three.length = 3 → ∃ t ∈ three, t.Serves c) ↔
      ∀ three, three <:+: log → three.length = 3 →
        ∃ t ∈ three, ∃ id, t.choice = some id ∧ id ∈ t.candidates c) ∧
    ∀ last, Shift.place nodeId .neverSynced r < last → (∀ t ∈ log, t.PassesOver last) →
      ∀ t ∈ log, ∃ id ∈ t.candidates .neverSynced, t.report.scheduled = [id] := by
  refine ⟨fun t ht => ?_, fun t _ id => Vacancy.choice_of_offer, fun c => ?_,
    fun last hplace hlog => (Vacancy.backlog_of_logged hrun hplace hlog).1⟩
  · obtain ⟨r₁, r₂, h⟩ := Vacancy.runs_of_logged hrun ht
    exact h.scheduled
  · refine forall_congr' fun three => forall_congr' fun hthree => imp_congr_right fun _ => ?_
    refine exists_congr fun t => and_congr_right fun ht => ?_
    obtain ⟨r₁, r₂, h⟩ := Vacancy.runs_of_logged hrun (hthree.subset ht)
    exact h.serves_iff

/-! ### Three ticks of one job each -/

/-- A tick at a site where the queue is empty. -/
def scarceTick (s : Site) (r : Rotation) : Except Failure (TickReport × Rotation) × Site :=
  s.tick backlogScheduler narrowNode r

/-- The site once the job of the tick has run. -/
def afterScarce (s : Site) (r : Rotation) : Site :=
  ((scarceTick s r).2.drain backlogScheduler.config.features "repositories").2

/-- The tick, as it reports `ids`. -/
def scarceVacancy (s : Site) (r : Rotation) (ids : List Int) : Vacancy :=
  ⟨backlogScheduler, narrowNode, r, s.store, .empty, ⟨none, ids, false⟩⟩

theorem runs_scarceTick {s : Site} {r : Rotation} {ids : List Int}
    (hq : s.queues.get? "repositories" = some .empty)
    (hwaits : ∀ c ∈ categories backlogScheduler.config.features, (scarceVacancy s r ids).Waits c)
    (hF : (backlogScheduler.tick narrowNode r s.tickLimit).Throughout Scheduler.LooksUp s)
    (hreport : (scarceTick s r).1.map Prod.fst = .ok ⟨none, ids, false⟩) :
    (scarceVacancy s r ids).Runs 2 r (leftOff (scarceTick s r).1) := by
  obtain ⟨h, hr, hh⟩ := Program.reaches_alone hF (Prod.ext (eq_leftOff hreport) rfl)
  exact ⟨rfl, rfl, .inr rfl, ⟨s.tickLimit, s, h, _, rfl, hq, hr, hh⟩, rfl, hwaits, rfl, rfl⟩

/-- Where the first tick left off. -/
def scarceFirst : Rotation := leftOff (scarceTick backlogSite .empty).1

/-- What the second finds. -/
def scarceSite : Site := afterScarce backlogSite .empty

/-- Where the second left off. -/
def scarceSecond : Rotation := leftOff (scarceTick scarceSite scarceFirst).1

/-- What the third finds. -/
def scarcerSite : Site := afterScarce scarceSite scarceFirst

/-- Where the third left off. -/
def scarceThird : Rotation := leftOff (scarceTick scarcerSite scarceSecond).1

/-- Three ticks, with the job of each done before the next. -/
def scarceLog : List Vacancy :=
  [scarceVacancy backlogSite .empty [1], scarceVacancy scarceSite scarceFirst [2],
    scarceVacancy scarcerSite scarceSecond [3]]

theorem logged_scarceLog :
    Logged (Vacancy.Stays 2) (Vacancy.Runs 2) .empty scarceLog scarceThird := by
  have hfirst : (scarceVacancy backlogSite .empty [1]).Runs 2 .empty scarceFirst :=
    runs_scarceTick (by decide) (by decide) (by decide) (by decide)
  have hsecond : (scarceVacancy scarceSite scarceFirst [2]).Runs 2 scarceFirst scarceSecond :=
    runs_scarceTick (by decide) (by decide) (by decide) (by decide)
  have hthird : (scarceVacancy scarcerSite scarceSecond [3]).Runs 2 scarceSecond scarceThird :=
    runs_scarceTick (by decide) (by decide) (by decide) (by decide)
  exact ((Logged.start.act hfirst).act hsecond).act hthird

/-- The project with number 4 is passed over three times, for others that were never copied. -/
theorem scarce_slot_backlog :
    Logged (Vacancy.Stays 2) (Vacancy.Runs 2) .empty scarceLog scarceThird ∧
    (∀ t ∈ scarceLog, ∃ id, t.choice = some id ∧ t.report.scheduled = [id]) ∧
    ((∀ three, three <:+: scarceLog → three.length = 3 → ∃ t ∈ three, t.Serves .failed) ↔
      ∀ three, three <:+: scarceLog → three.length = 3 →
        ∃ t ∈ three, ∃ id, t.choice = some id ∧ id ∈ t.candidates .failed) ∧
    (∀ t ∈ scarceLog, t.PassesOver 4) ∧
    ∀ t ∈ scarceLog, ∃ id ∈ t.candidates .neverSynced, t.report.scheduled = [id] := by
  have hpasses : ∀ t ∈ scarceLog, t.PassesOver 4 := by
    simp only [scarceLog, List.forall_mem_cons]
    exact ⟨⟨by decide, by decide, by decide⟩, ⟨by decide, by decide, by decide⟩,
      ⟨by decide, by decide, by decide⟩, List.forall_mem_nil _⟩
  obtain ⟨hscheduled, -, hserves, hbacklog⟩ := scarce_slot logged_scarceLog
  exact ⟨logged_scarceLog, hscheduled, hserves .failed, hpasses,
    hbacklog 4 (by decide) hpasses⟩

/-- **A slot that is not shared**: two projects that could not be copied wait in each of three
ticks, and none of them gets the slot. -/
theorem slot_not_shared :
    Logged (Vacancy.Stays 2) (Vacancy.Runs 2) .empty scarceLog scarceThird ∧
    scarceLog.length = 3 ∧
    (∀ t ∈ scarceLog, .failed ∈ categories t.sched.config.features ∧ t.Waits .failed) ∧
    ¬ ∃ t ∈ scarceLog, t.Serves .failed := by
  exact ⟨logged_scarceLog, rfl, by decide, by decide⟩

end GeoReplication
