import GeoReplication.Proofs.Logged
import GeoReplication.Proofs.Tick.FillsRoom
import GeoReplication.Proofs.Tick.Lap
import GeoReplication.Proofs.Tick.Outcome

/-!
# Proofs/Tick/Rotation — ticks take turns fairly

    ── tick ──▸ queue emptied ── tick ──▸ queue emptied ── tick ──▸ …

One category alone has candidates, the same at every tick, and every tick begins with an empty
queue.  Room, page size and storages may differ from tick to tick, and each may be late or lose its
lease at any step.  A tick advances along the ring of the candidates (`Shift.advances`), and one
that is not cut short goes as far as there is room (`Shift.length_scheduled`).  So no candidate is
dispatched more than twice while another waits for its turn, and ticks of one capacity dispatch all
equally often (`rotation_is_fair`).
-/

namespace GeoReplication

open Source Scheduler

/-- A tick of a scheduler for a node, and its report. -/
structure Shift where
  sched : Scheduler
  node : Node
  report : TickReport

namespace Shift

/-- The tick of a node that left off at `r` ends at `r'`: it began with an empty queue, only
category `c` had candidates, which others left alone meanwhile, and no look-up failed. -/
structure Runs (nodeId : Int) (c : Category) (S : List Int) (r : Rotation) (t : Shift)
    (r' : Rotation) : Prop where
  node : t.node.id = nodeId
  lease : t.sched.HasLease
  run : ∃ limit s h s', s.queues.get? t.sched.queue = some .empty ∧
    (∀ c' ∈ categories t.sched.config.features,
      s.store.allCandidates (t.sched.filter t.node) c' = if c' = c then S else []) ∧
    (t.sched.tick t.node r limit).Reaches (Aside t.sched t.node) s h (.done (t.report, r')) s' ∧
    ∀ m ∈ h, LooksUp m.site m.effect

/-- Where the next tick of a node begins. -/
def place (nodeId : Int) (c : Category) (r : Rotation) : Int := (r.get? (nodeId, c)).getD 0

variable {nodeId : Int} {c : Category} {S : List Int} {r r' : Rotation} {t : Shift}

theorem nodup_categories (f : Features) : (categories f).Nodup := by
  rw [categories]
  split <;> decide

/-- How far a tick advances: as far as there is room, or not at all, unless it is cut short. -/
structure Step (S : List Int) (start : Int) (t : Shift) (start' : Int) : Prop where
  advances : Advances S start t.report.scheduled start'
  whole : t.report.incomplete = false → t.report.scheduled = [] ∧ start' = start ∨
    t.report.scheduled.length = min t.node.reposMaxCapacity.toNat S.length

theorem Step.idle {start : Int} (ht : t.report.scheduled = []) : Step S start t start where
  advances := by
    rw [ht]
    exact .idle S start
  whole _ := .inl ⟨ht, rfl⟩

section Sweep

variable {sched : Scheduler} {n : Node} {store : Store} {queue : JobQueue} {steps slots : Nat}
  {c' : Category}

theorem categories_sweep_outset : (((sched.outlook n store queue).sweep steps slots
      (sched.outset n r)).2.sources.map (·.category)) = categories sched.config.features :=
  (Outlook.categories_sweep steps slots _).trans
    (Outlook.sound_outset (sched.outlook n store queue) _ _).categories

variable (hS : ∀ c' ∈ categories sched.config.features,
  store.allCandidates (sched.filter n) c' = if c' = c then S else [])

include hS

/-- A category that is not looked at stays where it is. -/
theorem sweep_of_not_looked (hc : c ∉ categories sched.config.features) :
    ((sched.outlook n store .empty).sweep steps slots (sched.outset n r)).2.scheduled = [] ∧
      place n.id c (remember n ((sched.outlook n store .empty).sweep steps slots
        (sched.outset n r)).2.sources r) = place n.id c r := by
  constructor
  · refine List.eq_nil_iff_forall_not_mem.mpr fun id hid => ?_
    have hpicked := (sweep_begins_picks steps store slots).subset hid
    obtain ⟨-, c', hc', hcandidate⟩ :=
      mem_wanted.mp (picks_subset_wanted sched n r store _ _ hpicked)
    have hne : c' ≠ c := by
      rintro rfl
      exact hc hc'
    change id ∈ store.allCandidates (sched.filter n) c' at hcandidate
    rw [hS c' hc', if_neg hne] at hcandidate
    exact List.not_mem_nil hcandidate
  · rw [place, get?_remember_of_notMem _ _ (by rwa [categories_sweep_outset]), place]

/-- A category that is looked at advances along its ring. -/
theorem advances_of_looked (hc : c ∈ categories sched.config.features) :
    Advances S (place n.id c r)
      ((sched.outlook n store .empty).sweep steps slots (sched.outset n r)).2.scheduled
      (place n.id c (remember n ((sched.outlook n store .empty).sweep steps slots
        (sched.outset n r)).2.sources r)) := by
  have hsame : (sched.outlook n store .empty).candidates c = S := (hS c hc).trans (if_pos rfl)
  obtain ⟨src, hsrc, hcategory, hadvances⟩ := Outlook.advances_sweep
    (o := sched.outlook n store .empty) (fun _ => rfl)
    (fun c => (r.get? (n.id, c)).getD 0) (nodup_categories sched.config.features) hc
    (fun c' hc' hne => (hS c' hc').trans (if_neg hne)) steps slots
  have hnodup : (((sched.outlook n store .empty).sweep steps slots
      (sched.outset n r)).2.sources.map (·.category)).Nodup := by
    rw [categories_sweep_outset]
    exact nodup_categories sched.config.features
  have hplace := get?_remember (n := n) _ r hnodup src hsrc
  rw [hcategory] at hplace
  rw [hsame] at hadvances
  rw [place, place, hplace]
  exact hadvances

/-- The projects that wait are the candidates. -/
theorem wanted_perm (hc : c ∈ categories sched.config.features) :
    (sched.wanted n store .empty).Perm S := by
  have hsame : store.allCandidates (sched.filter n) c = S := (hS c hc).trans (if_pos rfl)
  have hnodup : S.Nodup := hsame ▸ (store.allCandidates_pairwise _ c).imp Int.ne_of_lt
  refine (List.perm_ext_iff_of_nodup (nodup_wanted sched n store _) hnodup).mpr fun id => ?_
  rw [mem_wanted]
  constructor
  · rintro ⟨-, c', hc', hcandidate⟩
    change id ∈ store.allCandidates (sched.filter n) c' at hcandidate
    rw [hS c' hc'] at hcandidate
    split at hcandidate
    · exact hcandidate
    · exact absurd hcandidate List.not_mem_nil
  · rw [← hsame]
    exact fun hid => ⟨rfl, c, hc, hid⟩

/-- When it has ended there was no room or no candidate left. -/
theorem length_of_finished (hc : c ∈ categories sched.config.features)
    (hfin : ((sched.outlook n store .empty).sweep steps slots (sched.outset n r)).1 = .finished) :
    ((sched.outlook n store .empty).sweep steps slots (sched.outset n r)).2.scheduled.length =
      min slots S.length := by
  rw [sweep_of_finished hfin, length_picks, (wanted_perm hS hc).length_eq]

end Sweep

/-- **A tick advances along the ring.** -/
theorem Runs.step (h : t.Runs nodeId c S r r') :
    Step S (place nodeId c r) t (place nodeId c r') := by
  obtain ⟨sched, n, report⟩ := t
  obtain ⟨rfl, hl, limit, s, h, s', hq, hS, hr, hF⟩ := h
  dsimp only at hl hq hS hr ⊢
  obtain ⟨q', houtcome, -⟩ := tick_outcome hl hq hr hF
  cases houtcome with
  | idle skipped _ => exact .idle rfl
  | swept steps hsweep _ =>
    subst hsweep
    by_cases hc : c ∈ categories sched.config.features
    · refine ⟨advances_of_looked hS hc, fun hwhole => .inr (length_of_finished hS hc ?_)⟩
      exact not_not.mp (of_decide_eq_false hwhole)
    · obtain ⟨hnone, hplace⟩ := sweep_of_not_looked hS hc
      rw [hplace]
      exact .idle hnone

/-! ## Many ticks -/

/-- The rotation stays where it is for a node and a category. -/
def Stays (nodeId : Int) (c : Category) (r r' : Rotation) : Prop :=
  r'.get? (nodeId, c) = r.get? (nodeId, c)

/-- All that ticks dispatched, oldest first. -/
def dispatched (log : List Shift) : List Int := log.flatMap (·.report.scheduled)

theorem dispatched_concat (log : List Shift) (t : Shift) :
    dispatched (log ++ [t]) = dispatched log ++ t.report.scheduled := by
  simp [dispatched]

theorem place_of_stays (h : Stays nodeId c r r') : place nodeId c r' = place nodeId c r :=
  congrArg (·.getD 0) h

variable {log : List Shift} {q : Int} {k : Nat}

/-- **Fair towards each candidate** after any number of ticks. -/
theorem fair_of_logged (hS : S.Pairwise (· < ·)) (hq : q ∈ S)
    (hrun : Logged (Stays nodeId c) (Runs nodeId c S) r log r') :
    Fair S q (dispatched log) (place nodeId c r') := by
  refine hrun.inv (P := fun log r' => Fair S q (dispatched log) (place nodeId c r'))
    (.begin hS q _) (fun h hstays => ?_) fun h hact => ?_
  · rw [place_of_stays hstays]
    exact h
  · rw [dispatched_concat]
    exact h.advance hS hq hact.step.advances

/-- **Balanced** after any number of ticks of one capacity that were not cut short. -/
theorem balanced_of_logged (hS : S.Pairwise (· < ·))
    (hrun : Logged (Stays nodeId c) (Runs nodeId c S) r log r')
    (hlog : ∀ t ∈ log, t.node.reposMaxCapacity.toNat = k ∧ t.report.incomplete = false) :
    ∃ m waiting served, Balanced S k (dispatched log) (place nodeId c r') m waiting served := by
  induction hrun with
  | start => exact ⟨_, _, _, .begin S k _⟩
  | quiet _ hstays ih =>
    rw [place_of_stays hstays]
    exact ih hlog
  | @act log t r₁ r₂ _ hact ih =>
    obtain ⟨m, waiting, served, h⟩ := ih fun t ht => hlog t (List.mem_append_left _ ht)
    obtain ⟨rfl, hwhole⟩ := hlog t List.mem_concat_self
    rw [dispatched_concat]
    rcases hact.step.whole hwhole with ⟨hnone, hplace⟩ | hlength
    · rw [hnone, hplace, List.append_nil]
      exact ⟨m, waiting, served, h⟩
    · exact h.advance hS hact.step.advances hlength

end Shift

/-- **Rotation is fair.**  Before a candidate `q` is first dispatched no other is dispatched more
than once; from then on none is dispatched more than twice until `q` has its next turn.  When every
tick has the same capacity and none is cut short, all are dispatched equally often, but for one
time. -/
theorem rotation_is_fair {nodeId : Int} {c : Category} {S : List Int} {r r' : Rotation}
    {log : List Shift} {q : Int} (hS : S.Pairwise (· < ·)) (hq : q ∈ S)
    (hrun : Logged (Shift.Stays nodeId c) (Shift.Runs nodeId c S) r log r') :
    (∀ mid post, Shift.dispatched log = mid ++ post → q ∉ mid → ∀ x, mid.count x ≤ 1) ∧
    (∀ pre mid post, Shift.dispatched log = pre ++ q :: (mid ++ post) → q ∉ mid →
      ∀ x, mid.count x ≤ 2) ∧
    ∀ k, (∀ t ∈ log, t.node.reposMaxCapacity.toNat = k ∧ t.report.incomplete = false) →
      ∀ x ∈ S, ∀ y ∈ S,
        (Shift.dispatched log).count x ≤ (Shift.dispatched log).count y + 1 := by
  have hfair := Shift.fair_of_logged hS hq hrun
  refine ⟨fun mid post hH hmid x => hfair.count_first_le hH hmid x,
    fun pre mid post hH hmid x => hfair.count_between_le hH hmid x, fun k hlog x hx y hy => ?_⟩
  obtain ⟨m, waiting, served, hbalanced⟩ := Shift.balanced_of_logged hS hrun hlog
  exact hbalanced.count_le hx hy

/-! ### Three ticks -/

/-- Three projects that were never copied, and an empty queue. -/
def trioSite : Site :=
  let project : ProjectRow := ⟨1, "p", "g/p", "default", false, none, none, none, ""⟩
  .start .epoch
    { Store.empty with
      nodes := Store.Numbered.empty.insert
        ⟨⟨"http", "primary", 80, ""⟩, true, true, 25, 10, "", ""⟩
      projects := ((Store.Numbered.empty.insert project).insert project).insert project }
    [("repositories", .empty)]

/-- The lease is lost at the second renewal. -/
def fickleSite : Site := { trioSite with lease := ⟨.ok true, [.ok true, .ok false], 0, none⟩ }

/-- A secondary with room for two jobs. -/
def trioNode : Node :=
  ⟨2, ⟨"http", "secondary", 80, ""⟩, .secondary, true, [], 2, 10, .epoch, .epoch⟩

/-- A tick at a site, with nothing else going on. -/
def trioTick (sched : Scheduler) (s : Site) (r : Rotation) :
    Except Failure (TickReport × Rotation) × Site := (sched.tick trioNode r 13).run s

/-- Where a tick left off that gave a result. -/
def leftOff (result : Except Failure (TickReport × Rotation)) : Rotation :=
  match result with
  | .ok (_, r) => r
  | .error _ => .empty

theorem eq_leftOff {report : TickReport} : ∀ {result : Except Failure (TickReport × Rotation)},
    result.map Prod.fst = .ok report → result = .ok (report, leftOff result)
  | .ok (_, _), h => by cases h; rfl
  | .error _, h => by cases h

/-- Looks candidates up many at a time. -/
def wideScheduler : Scheduler :=
  ⟨{ Config.standard with batchSize := 100 }, ["default"], .elsewhere, "repositories"⟩

theorem runs_trioTick {sched : Scheduler} {s : Site} {r : Rotation} {report : TickReport}
    (hl : sched.HasLease) (hq : s.queues.get? sched.queue = some .empty)
    (hS : ∀ c' ∈ categories sched.config.features,
      s.store.allCandidates (sched.filter trioNode) c' =
        if c' = .neverSynced then [1, 2, 3] else [])
    (hF : (sched.tick trioNode r 13).Throughout LooksUp s)
    (hreport : (trioTick sched s r).1.map Prod.fst = .ok report) :
    Shift.Runs 2 .neverSynced [1, 2, 3] r ⟨sched, trioNode, report⟩
      (leftOff (trioTick sched s r).1) := by
  obtain ⟨h, hr, hh⟩ := Program.reaches_alone hF (Prod.ext (eq_leftOff hreport) rfl)
  exact ⟨rfl, hl, 13, s, h, _, hq, hS, hr, hh⟩

/-- Where the first of three ticks left off. -/
def trioFirst : Rotation := leftOff (trioTick wideScheduler trioSite .empty).1

/-- Where the second left off. -/
def trioSecond : Rotation := leftOff (trioTick pagingScheduler trioSite trioFirst).1

/-- Where the third left off. -/
def trioThird : Rotation := leftOff (trioTick pagingScheduler fickleSite trioSecond).1

/-- Two ticks. -/
def twoShifts : List Shift :=
  [⟨wideScheduler, trioNode, ⟨none, [1, 2], false⟩⟩,
    ⟨pagingScheduler, trioNode, ⟨none, [3, 1], false⟩⟩]

/-- A third, which loses its lease after its first step. -/
def cutShift : Shift := ⟨pagingScheduler, trioNode, ⟨none, [2], true⟩⟩

theorem logged_twoShifts : Logged (Shift.Stays 2 .neverSynced)
    (Shift.Runs 2 .neverSynced [1, 2, 3]) .empty twoShifts trioSecond := by
  have hfirst : Shift.Runs 2 .neverSynced [1, 2, 3] .empty
      ⟨wideScheduler, trioNode, ⟨none, [1, 2], false⟩⟩ trioFirst :=
    runs_trioTick (.inr rfl) (by decide) (by decide) (by decide) (by decide)
  have hsecond : Shift.Runs 2 .neverSynced [1, 2, 3] trioFirst
      ⟨pagingScheduler, trioNode, ⟨none, [3, 1], false⟩⟩ trioSecond :=
    runs_trioTick (.inr rfl) (by decide) (by decide) (by decide) (by decide)
  exact (Logged.start.act hfirst).act hsecond

theorem logged_threeShifts : Logged (Shift.Stays 2 .neverSynced)
    (Shift.Runs 2 .neverSynced [1, 2, 3]) .empty (twoShifts ++ [cutShift]) trioThird :=
  logged_twoShifts.act
    (runs_trioTick (.inr rfl) (by decide) (by decide) (by decide) (by decide))

/-- Pages of many and of one, and a tick that is cut short: the last candidate is dispatched third,
and the others at most twice while it waits for its second turn. -/
theorem rotation_is_fair_trio :
    Shift.dispatched (twoShifts ++ [cutShift]) = [1, 2, 3, 1, 2] ∧
    Logged (Shift.Stays 2 .neverSynced) (Shift.Runs 2 .neverSynced [1, 2, 3]) .empty
      (twoShifts ++ [cutShift]) trioThird ∧
    (∀ x : Int, [1, 2].count x ≤ 1) ∧ (∀ x : Int, [1, 2].count x ≤ 2) ∧
    ∀ x ∈ ([1, 2, 3] : List Int), ∀ y ∈ ([1, 2, 3] : List Int),
      (Shift.dispatched twoShifts).count x ≤ (Shift.dispatched twoShifts).count y + 1 := by
  have hS : ([1, 2, 3] : List Int).Pairwise (· < ·) := by decide
  have hq : (3 : Int) ∈ [1, 2, 3] := by decide
  obtain ⟨hfirst, hbetween, -⟩ := rotation_is_fair (q := 3) hS hq logged_threeShifts
  obtain ⟨-, -, heven⟩ := rotation_is_fair (q := 3) hS hq logged_twoShifts
  exact ⟨rfl, logged_threeShifts, hfirst [1, 2] [3, 1, 2] rfl (by decide),
    hbetween [1, 2] [1, 2] [] rfl (by decide), heven 2 (by decide)⟩

end GeoReplication
