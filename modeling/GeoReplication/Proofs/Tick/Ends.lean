import GeoReplication.Proofs.Program.Abreast
import GeoReplication.Proofs.Store.Events
import GeoReplication.Proofs.Tick.Budget
import GeoReplication.Proofs.Tick.Outcome
import GeoReplication.Proofs.Tick.Renewals
import GeoReplication.Proofs.Tick.SharedQueue

/-!
# Proofs/Tick/Ends — a tick comes to an end, whatever changes meanwhile

As long as no project comes into being, others may do anything between two effects of a tick: the
clock may stand still, executors make room, and the candidates be others whenever they are looked
up.  At every moment the looks at the time that a tick has made and the steps that it can still
afford stay within one bound, and what it has pushed is what it has picked (`OnBudget`).  So it
begins no more than `3N + 3` steps among `N` projects, however many it is allowed, and pushes no
project twice (`tick_ends`).  With more steps allowed than it can make it is as if there were no
limit (`follows_tick_limit`).
-/

namespace GeoReplication

open Program Relation

/-- No project comes into being; whatever else changes. -/
def Site.NoNewProjects (s s' : Site) : Prop :=
  s'.store.projects.rows.map Prod.fst ⊆ s.store.projects.rows.map Prod.fst

theorem Site.noNewProjects_onQueue (s : Site) (name : String) (c : QueueCall) :
    NoNewProjects s (s.onQueue name c).2 := List.Subset.refl _

/-- How often a program has looked at the time since the start. -/
def Moment.looks (h : List Moment) : Nat := h.countP fun m => decide (m.effect = .uptime)

/-- How many steps a tick has begun: it looks at the time at the beginning of each, and once
before. -/
def Moment.stepsBegun (h : List Moment) : Nat := Moment.looks h - 1

/-! ## Effects of a tick -/

/-- An effect that looks at no time, puts no job into a queue and leaves the projects alone. -/
structure Effect.IsCalm (e : Effect) : Prop where
  quiet : e.IsQuiet
  notLook : e ≠ .uptime
  store : ∀ c, e = .store c → .projects ∉ c.writes

theorem Site.projects_perform {s : Site} {e : Effect} (hfetch : ∀ url p part, e ≠ .fetch url p part)
    (hstore : ∀ c, e = .store c → .projects ∉ c.writes) :
    (s.perform e).2.store.projects = s.store.projects := by
  cases e with
  | store c =>
    rcases s.store_call c with hsame | hrun
    · exact congrArg Store.projects hsame
    · have hsame := c.sameBut_run s.now s.store .projects (hstore c rfl)
      exact (congrArg Store.projects hrun).trans hsame
  | fetch url p part => exact absurd rfl (hfetch url p part)
  | lease c => exact congrArg Store.projects (s.store_askLease c)
  | _ => rfl

theorem Moment.looks_append (h₁ h₂ : List Moment) :
    Moment.looks (h₁ ++ h₂) = Moment.looks h₁ + Moment.looks h₂ := List.countP_append

theorem Moment.looks_snoc (h : List Moment) (m : Moment) :
    Moment.looks (h ++ [m]) = Moment.looks h + if m.effect = .uptime then 1 else 0 := by
  rw [Moment.looks_append, Moment.looks, Moment.looks, List.countP_singleton]
  simp

namespace Scheduler

open Source

variable {sched : Scheduler} {n : Node} {name : String} {U pushed due : List Int}
  {bound budget : Nat} {p : Progress} {h : List Moment} {s s' : Site}

/-- At most `budget` looks at the time are left of `bound`, and `pushed` were pushed before `due`,
none of them twice; and there are no projects but `U`. -/
structure OnBudget (name : String) (U : List Int) (bound budget : Nat) (pushed due : List Int)
    (h : List Moment) (s : Site) : Prop where
  projects : s.store.projects.rows.map Prod.fst ⊆ U
  looks : Moment.looks h + budget ≤ bound
  pushes : Moment.pushes name h = pushed
  once : (pushed ++ due).Nodup

namespace OnBudget

theorem others (hb : OnBudget name U bound budget pushed due h s) (ho : Site.NoNewProjects s s') :
    OnBudget name U bound budget pushed due h s' :=
  { hb with projects := List.Subset.trans ho hb.projects }

theorem wait (hb : OnBudget name U bound budget pushed due h s)
    (hs : ReflTransGen Site.NoNewProjects s s') : OnBudget name U bound budget pushed due h s' := by
  induction hs with
  | refl => exact hb
  | tail _ ho ih => exact ih.others ho

theorem calm {e : Effect} (he : e.IsCalm) (hb : OnBudget name U bound budget pushed due h s) :
    OnBudget name U bound budget pushed due (h ++ [⟨s, e⟩]) (Moment.after ⟨s, e⟩) where
  projects := by
    have hsame : (s.perform e).2.store.projects = s.store.projects :=
      Site.projects_perform (fun _ _ _ hf => by rw [hf] at he; exact he.quiet) he.store
    rw [Moment.after, hsame]
    exact hb.projects
  looks := by
    rw [Moment.looks_snoc, if_neg he.notLook]
    exact hb.looks
  pushes := (Moment.pushes_of_quiet he.quiet name h s).trans hb.pushes
  once := hb.once

theorem look (hb : OnBudget name U bound (budget + 1) pushed due h s) :
    OnBudget name U bound budget pushed due (h ++ [⟨s, .uptime⟩]) (Moment.after ⟨s, .uptime⟩) where
  projects := hb.projects
  looks := by
    have hlooks := hb.looks
    rw [Moment.looks_snoc, if_pos rfl]
    omega
  pushes := (Moment.pushes_of_quiet (e := .uptime) trivial name h s).trans hb.pushes
  once := hb.once

theorem push (job : Job) (hb : OnBudget name U bound budget pushed (job.projectId :: due) h s) :
    OnBudget name U bound budget (pushed ++ [job.projectId]) due
      (h ++ [⟨s, .queue name (.push job)⟩]) (Moment.after ⟨s, .queue name (.push job)⟩) where
  projects := hb.projects
  looks := by
    rw [Moment.looks_snoc, if_neg nofun]
    exact hb.looks
  pushes := by rw [Moment.pushes_push, hb.pushes]
  once := by rw [← List.append_cons]; exact hb.once

theorem holds (hb : OnBudget name U bound budget pushed due h s) :
    Moment.looks h ≤ bound ∧ (Moment.pushes name h).Nodup :=
  ⟨(Nat.le_add_right _ _).trans hb.looks, hb.pushes ▸ (List.nodup_append.mp hb.once).1⟩

end OnBudget

/-- A part of a tick keeps within `bound` at every moment; `post` says what it leaves. -/
abbrev Budgets {α : Type} (name : String) (bound : Nat) (t : Program α)
    (post : α → List Moment → Site → Prop) (h : List Moment) (s : Site) : Prop :=
  t.Guards Site.NoNewProjects
    (fun h _ => Moment.looks h ≤ bound ∧ (Moment.pushes name h).Nodup)
    (fun r h s => ∀ a, r = .ok a → post a h s) h s

section Parts

variable {α β : Type}

theorem Budgets.bind {t : Program α} {next : α → Program β} {mid : α → List Moment → Site → Prop}
    {post : β → List Moment → Site → Prop} (ht : Budgets name bound t mid h s)
    (hnext : ∀ a h s, mid a h s → Budgets name bound (next a) post h s) :
    Budgets name bound (t >>= next) post h s := Guards.bind_ok ht hnext

theorem budgets_of_every {q : α → Prop} {t : Program α} (ht : t.Every Effect.IsCalm q)
    (hb : OnBudget name U bound budget pushed due h s) :
    Budgets name bound t (fun a h s => OnBudget name U bound budget pushed due h s ∧ q a) h s := by
  refine (ht.guards (P := OnBudget name U bound budget pushed due) (fun _ _ _ => OnBudget.others)
    (fun _ _ _ he hb => hb.calm he) (fun _ _ => OnBudget.holds) hb).imp ?_
  exact fun r h s hr a ha => ⟨hr.1, hr.2 a ha⟩

theorem budgets_perform {e : Effect} {k : e.Reply → Program α} {budget' : Nat}
    {pushed' due' : List Int} {post : α → List Moment → Site → Prop}
    (hb : OnBudget name U bound budget pushed due h s)
    (hown : ∀ s', OnBudget name U bound budget pushed due h s' →
      OnBudget name U bound budget' pushed' due' (h ++ [⟨s', e⟩]) (Moment.after ⟨s', e⟩))
    (hnext : ∀ h' s' reply, OnBudget name U bound budget' pushed' due' h' s' →
      Budgets name bound (k reply) post h' s') :
    Budgets name bound (perform e k) post h s := by
  intro s' hs
  have hb' := hown s' (hb.wait hs)
  exact ⟨hb'.holds, hnext _ _ _ hb'⟩

theorem budgets_uptime (hb : OnBudget name U bound (budget + 1) pushed due h s) :
    Budgets name bound Program.uptime
      (fun _ h s => OnBudget name U bound budget pushed due h s) h s :=
  budgets_perform hb (fun _ => OnBudget.look) fun _ _ _ hb' => by
    rintro _ ⟨⟩
    exact hb'

/-! ### Look-ups -/

theorem isCalm_store {c : Call} (hc : .projects ∉ c.writes) : (Effect.store c).IsCalm where
  quiet := trivial
  notLook := by rintro ⟨⟩
  store := by
    rintro _ ⟨⟩
    exact hc

/-- A page holds projects behind the number that was asked for. -/
theorem mem_of_page {c : Category} {f : CandidateFilter} {afterId : Int} {size : Nat}
    {page : List Int} (hpage : (s.call (.findCandidates c f afterId size)).1 = .ok page) :
    ∀ id ∈ page, id ∈ s.store.projects.rows.map Prod.fst ∧ afterId < id := by
  have hread : Except.ok (s.store.candidates f c afterId size) =
      (.ok page : Except Failure (List Int)) := congrArg Prod.fst (Site.run_of_call_ok hpage)
  rw [← Except.ok.inj hread]
  intro id hid
  obtain ⟨hid, hafter⟩ := List.mem_filter.mp ((Store.limited_prefix _ _).subset hid)
  exact ⟨(s.store.allCandidates_sublist f c).subset hid, of_decide_eq_true hafter⟩

theorem budgets_refill (f : CandidateFilter) (src : Source)
    (hb : OnBudget name U bound budget pushed due h s) :
    Budgets name bound (sched.refill f src) (fun src' h s =>
      OnBudget name U bound budget pushed due h s ∧ Refilled U src src') h s := by
  rw [refill]
  split
  · next hdue =>
    have hlook : Budgets name bound
        (attempt (call (.findCandidates src.category f src.afterId sched.batchSize)))
        (fun r h s => OnBudget name U bound budget pushed due h s ∧
          ∀ page, r = .ok page → ∀ id ∈ page, id ∈ U ∧ src.afterId < id) h s := by
      refine Guards.attempt (Guards.call fun s' hs => ?_)
      have hb' := hb.wait hs
      have hcalm := hb'.calm (isCalm_store (c := .findCandidates src.category f src.afterId
        sched.batchSize) List.not_mem_nil)
      refine ⟨hcalm.holds, ?_⟩
      cases hreply : (s'.call (.findCandidates src.category f src.afterId sched.batchSize)).1 with
      | ok page =>
        rintro _ ⟨⟩
        refine ⟨hcalm, ?_⟩
        rintro _ ⟨⟩ id hid
        exact (mem_of_page hreply id hid).imp_left fun hmem => hb'.projects hmem
      | error failure =>
        cases failure with
        | error e =>
          rintro _ ⟨⟩
          exact ⟨hcalm, by rintro _ ⟨⟩⟩
        | overflow o => rintro _ ⟨⟩
    refine hlook.bind ?_
    rintro (e | page) h s ⟨hb', hpage⟩ _ ⟨⟩
    · exact ⟨hb', .giveUp hdue⟩
    · exact ⟨hb', .page (Nat.le_max_right _ 1) hdue (hpage page rfl)⟩
  · next hdue =>
    rintro _ ⟨⟩
    exact ⟨hb, .notDue hdue⟩

theorem budgets_refillAll (f : CandidateFilter) : ∀ (ss : List Source) {h : List Moment} {s : Site},
    OnBudget name U bound budget pushed due h s →
    Budgets name bound (sched.refillAll f ss) (fun ss' h s =>
      OnBudget name U bound budget pushed due h s ∧ List.Forall₂ (Refilled U) ss ss') h s
  | [], h, s, hb => by
      rintro _ ⟨⟩
      exact ⟨hb, .nil⟩
  | src :: ss, h, s, hb => by
      refine (budgets_refill f src hb).bind fun src' h s hsrc => ?_
      refine (budgets_refillAll f ss hsrc.1).bind fun ss' h s hss => ?_
      rintro _ ⟨⟩
      exact ⟨hss.1, .cons hsrc.2 hss.2⟩

/-! ### Picks and pushes -/

theorem budgets_dispatch : ∀ (ids : List Int) {pushed : List Int} {h : List Moment} {s : Site},
    OnBudget sched.queue U bound budget pushed ids h s →
    Budgets sched.queue bound (sched.dispatch n ids) (fun taken h s =>
      OnBudget sched.queue U bound budget (pushed ++ ids) [] h s ∧ taken.Sublist ids) h s
  | [], pushed, h, s, hb => by
      rintro _ ⟨⟩
      rw [List.append_nil]
      exact ⟨hb, .refl _⟩
  | id :: ids, pushed, h, s, hb => by
      have hclock : Effect.clock.IsCalm := ⟨trivial, by rintro ⟨⟩, by rintro _ ⟨⟩⟩
      refine budgets_perform hb (fun _ hb => hb.calm hclock) fun h s now hb => ?_
      refine budgets_perform hb (fun _ hb => hb.push ⟨id, n.id, now⟩) fun h s taken hb => ?_
      refine (budgets_dispatch ids hb).bind fun rest h s hrest => ?_
      rintro _ ⟨⟩
      rw [← List.append_cons] at hrest
      refine ⟨hrest.1, ?_⟩
      split
      · exact hrest.2.cons_cons id
      · exact hrest.2.cons id

/-- Where a tick stands at the beginning of a step, or at its end: it has pushed what it picked. -/
structure Stands (name : String) (U : List Int) (bound budget : Nat) (p : Progress)
    (h : List Moment) (s : Site) : Prop where
  onBudget : OnBudget name U bound budget p.seen.reverse [] h s
  scheduled : p.scheduled.Sublist p.seen.reverse

theorem Stands.nodup (hs : Stands name U bound budget p h s) : p.scheduled.Nodup := by
  have honce := hs.onBudget.once
  rw [List.append_nil] at honce
  exact honce.sublist hs.scheduled

theorem budgets_fill (hs : Stands sched.queue U bound budget p h s) (capacity : Nat) :
    Budgets sched.queue bound (sched.fill n capacity p) (fun p' h s =>
      Stands sched.queue U bound budget p' h s ∧ ∃ ss' picked,
        BatchOf (fun _ _ => True) capacity p.sources ⟨[], p.seen⟩ ss' picked ∧
        p' = ⟨ss', picked.seen, p'.scheduled⟩) h s := by
  have hask : ∀ id, (Program.queue sched.queue (.isScheduled id)).Every Effect.IsCalm
      fun _ => True := fun _ => ⟨⟨trivial, by rintro ⟨⟩, by rintro _ ⟨⟩⟩, fun _ => trivial⟩
  have hpicks := Source.every_interleave hask capacity p.sources p.seen
  refine (budgets_of_every hpicks hs.onBudget).bind fun r h s hr => ?_
  obtain ⟨hb, hbatch⟩ := hr
  obtain ⟨new, hnew⟩ := hbatch.picks.adds
  have hnewBatch : r.2.batch = new := hnew.batch
  have hpushed : p.seen.reverse ++ new = r.2.seen.reverse := by
    rw [hnew.seen, List.reverse_append, List.reverse_reverse]
  have hdue : OnBudget sched.queue U bound budget p.seen.reverse r.2.batch h s := by
    refine { hb with once := ?_ }
    rw [hnewBatch, List.nodup_append]
    refine ⟨by simpa using hb.once, hnew.nodup, fun id hid id' hid' heq => ?_⟩
    exact hnew.fresh id' hid' (heq ▸ List.mem_reverse.mp hid)
  refine (budgets_dispatch r.2.batch hdue).bind ?_
  rintro taken h s ⟨hb, htaken⟩ _ ⟨⟩
  rw [hnewBatch, hpushed] at hb
  rw [hnewBatch] at htaken
  refine ⟨⟨hb, ?_⟩, r.1, r.2, hbatch, rfl⟩
  change (p.scheduled ++ taken).Sublist r.2.seen.reverse
  rw [← hpushed]
  exact hs.scheduled.append htaken

/-! ### The whole tick -/

theorem HasLease.isCalm (hl : sched.HasLease) (key : String) (ttl : Nat) :
    sched.lease.Does Effect.IsCalm key ttl := by
  refine hl.does (fun c hc => isCalm_store ?_) fun _ => ⟨trivial, by rintro ⟨⟩, by rintro _ ⟨⟩⟩
  cases c <;> first | exact hc.elim | simp [Call.writes]

/-- **Any number of steps** keeps within the budget. -/
theorem budgets_steps (hl : sched.HasLease) (deadline : Nat) :
    ∀ (count budget : Nat) (p : Progress) {h : List Moment} {s : Site}, Affords U budget p →
      Stands sched.queue U bound (budget + 1) p h s →
      Budgets sched.queue bound (sched.steps n deadline count p)
        (fun r h s => ∃ left, Stands sched.queue U bound left r.2 h s) h s
  | 0, _, _, _, _, _, hs => by
      rintro _ ⟨⟩
      exact ⟨_, hs⟩
  | count + 1, budget, p, h, s, ha, hs => by
      refine (budgets_uptime hs.onBudget).bind fun now h s hb => ?_
      split
      · rintro _ ⟨⟩
        exact ⟨_, hb, hs.scheduled⟩
      refine (budgets_of_every (every_keepsLease (hl.isCalm _ _)) hb).bind
        fun held h s hheld => ?_
      split
      · rintro _ ⟨⟩
        exact ⟨_, hheld.1, hs.scheduled⟩
      have hroom : (sched.room n).Every Effect.IsCalm fun _ => True :=
        every_room ⟨trivial, by rintro ⟨⟩, by rintro _ ⟨⟩⟩
      refine (budgets_of_every hroom hheld.1).bind fun capacity h s hcapacity => ?_
      split
      · rintro _ ⟨⟩
        exact ⟨_, hcapacity.1, hs.scheduled⟩
      next hfree =>
      refine (budgets_refillAll (sched.filter n) p.sources hcapacity.1).bind fun ss h s hss => ?_
      have hstands : Stands sched.queue U bound budget { p with sources := ss } h s :=
        ⟨hss.1, hs.scheduled⟩
      split
      · rintro _ ⟨⟩
        exact ⟨_, hstands⟩
      next hgoesOn =>
      refine (budgets_fill hstands capacity).bind ?_
      rintro p' h s ⟨hs', ss', picked, hbatch, hp'⟩
      obtain ⟨budget', rfl, ha'⟩ :=
        ha.step (r := (ss', picked)) hss.2 hgoesOn hfree hbatch p'.scheduled
      rw [← hp'] at ha'
      exact budgets_steps hl deadline count budget' p' ha' hs'

theorem budgets_schedule (hl : sched.HasLease) (rot : Rotation) (limit : Nat)
    (hb : OnBudget sched.queue U bound (3 * U.length + 4) [] [] h s) :
    Budgets sched.queue bound (sched.schedule n rot limit) (fun result h s =>
      result.1.scheduled.Nodup ∧
        ∃ left pushed, OnBudget sched.queue U bound left pushed [] h s) h s := by
  refine (budgets_uptime hb).bind fun now h s hb => ?_
  split
  · rintro _ ⟨⟩
  split
  · rintro _ ⟨⟩
    exact ⟨List.nodup_nil, _, _, hb⟩
  have hstands : Stands sched.queue U bound (3 * U.length + 2 + 1)
      ⟨sources sched.config.features n rot, [], []⟩ h s := ⟨hb, .refl _⟩
  refine (budgets_steps hl _ limit _ _ (affords_outset U _ n rot) hstands).bind ?_
  rintro ⟨ending, p⟩ h s ⟨left, hs⟩ _ ⟨⟩
  exact ⟨hs.nodup, left, _, hs.onBudget⟩

theorem budgets_tick (hl : sched.HasLease) (rot : Rotation) (limit : Nat)
    (hb : OnBudget sched.queue U bound (3 * U.length + 4) [] [] h s) :
    Budgets sched.queue bound (sched.tick n rot limit)
      (fun result _ _ => result.1.scheduled.Nodup) h s := by
  have hobstacle : (sched.obstacle n).Every Effect.IsCalm fun _ => True :=
    every_obstacle (isCalm_store List.not_mem_nil)
  refine (budgets_of_every hobstacle hb).bind fun obstacle h s hobstacle => ?_
  cases obstacle with
  | some reason =>
    rintro _ ⟨⟩
    exact List.nodup_nil
  | none =>
    refine (budgets_of_every (hl.isCalm _ _).obtain hobstacle.1).bind fun held h s hheld => ?_
    split
    · rintro _ ⟨⟩
      exact List.nodup_nil
    refine (budgets_schedule hl rot limit hheld.1).bind ?_
    rintro result h s ⟨hnodup, left, pushed, hb'⟩
    refine (budgets_of_every (every_cancel (hl.isCalm _ 0)) hb').bind fun _ _ _ _ => ?_
    rintro _ ⟨⟩
    exact hnodup

end Parts

/-! ## No step is missing -/

section Limit

variable {deadline limit limit' : Nat} {rot : Rotation} {h₁ h₂ : List Moment}

theorem looks_of_append (heq : h = h₁ ++ h₂) : Moment.looks h₂ ≤ Moment.looks h := by
  rw [heq, Moment.looks_append]
  exact Nat.le_add_left _ _

theorem looks_of_append_left (heq : h = h₁ ++ h₂) : Moment.looks h₁ ≤ Moment.looks h := by
  rw [heq, Moment.looks_append]
  exact Nat.le_add_right _ _

theorem looks_after_uptime {now : Nat} (heq : h = h₁ ++ h₂)
    (hnow : Program.uptime.Follows h₁ (.ok now)) : Moment.looks h = Moment.looks h₂ + 1 := by
  obtain ⟨s, _, rfl, rfl, -⟩ := hnow
  rw [heq, Moment.looks_append, Nat.add_comm]
  rfl

/-- Steps that were fewer than allowed would have been the same if another number had been
allowed. -/
theorem follows_steps : ∀ {count count' : Nat} {p : Progress} {h : List Moment}
    {r : Except Failure (Ending × Progress)}, (sched.steps n deadline count p).Follows h r →
      Moment.looks h < count → Moment.looks h < count' →
      (sched.steps n deadline count' p).Follows h r
  | 0, _, _, _, _, _, hcount, _ => absurd hcount (Nat.not_lt_zero _)
  | _ + 1, 0, _, _, _, _, _, hcount' => absurd hcount' (Nat.not_lt_zero _)
  | count + 1, count' + 1, p, h, r, hf, hcount, hcount' => by
      rw [steps] at hf ⊢
      refine hf.bind_imp fun now h₁ h₂ heq hnow hrest => ?_
      have hfirst := looks_after_uptime heq hnow
      by_cases hlate : deadline ≤ now
      · rwa [if_pos hlate] at hrest ⊢
      rw [if_neg hlate] at hrest ⊢
      refine hrest.bind_imp fun held h₃ h₄ heq₂ _ hrest => ?_
      by_cases hlost : (!held) = true
      · rwa [if_pos hlost] at hrest ⊢
      rw [if_neg hlost] at hrest ⊢
      refine hrest.bind_imp fun capacity h₅ h₆ heq₃ _ hrest => ?_
      by_cases hfull : capacity = 0
      · rwa [if_pos hfull] at hrest ⊢
      rw [if_neg hfull] at hrest ⊢
      refine hrest.bind_imp fun ss h₇ h₈ heq₄ _ hrest => ?_
      by_cases hdone : ss.all isDone = true
      · rwa [if_pos hdone] at hrest ⊢
      rw [if_neg hdone] at hrest ⊢
      refine hrest.bind_imp fun p' h₉ h₁₀ heq₅ _ hrest => ?_
      have hlater := (looks_of_append heq₅).trans ((looks_of_append heq₄).trans
        ((looks_of_append heq₃).trans (looks_of_append heq₂)))
      exact follows_steps hrest (by omega) (by omega)

theorem follows_schedule {r : Except Failure (TickReport × Rotation)}
    (hf : (sched.schedule n rot limit).Follows h r) (hlimit : Moment.looks h ≤ limit)
    (hlimit' : Moment.looks h ≤ limit') : (sched.schedule n rot limit').Follows h r := by
  rw [schedule] at hf ⊢
  refine hf.bind_imp fun now h₁ h₂ heq hnow hrest => ?_
  have hfirst := looks_after_uptime heq hnow
  split at hrest
  · next hover => rwa [if_pos hover]
  next hover =>
  rw [if_neg hover]
  split at hrest
  · next hnone => rwa [if_pos hnone]
  next hnone =>
  rw [if_neg hnone]
  refine hrest.first_imp fun r₁ h₃ h₄ heq₂ hsteps => ?_
  have hwithin := looks_of_append_left heq₂
  exact follows_steps hsteps (by omega) (by omega)

/-- **The number of steps allowed plays no part** if there are enough. -/
theorem follows_tick_limit {r : Except Failure (TickReport × Rotation)}
    (hf : (sched.tick n rot limit).Follows h r) (hlimit : Moment.looks h ≤ limit)
    (hlimit' : Moment.looks h ≤ limit') : (sched.tick n rot limit').Follows h r := by
  rw [tick] at hf ⊢
  refine hf.bind_imp fun obstacle h₁ h₂ heq _ hrest => ?_
  cases obstacle with
  | some reason => exact hrest
  | none =>
    refine hrest.bind_imp fun held h₃ h₄ heq₂ _ hrest => ?_
    split at hrest
    · next htaken => rwa [if_pos htaken]
    next htaken =>
    rw [if_neg htaken]
    have hlater := (looks_of_append heq₂).trans (looks_of_append heq)
    refine hrest.first_imp fun r₁ h₅ h₆ heq₃ hwork => ?_
    have hwithin := (looks_of_append_left heq₃).trans hlater
    exact follows_schedule hwork (hwithin.trans hlimit) (hwithin.trans hlimit')

end Limit

/-- **A tick comes to an end**: as long as no project comes into being, whatever else others do, it
begins no more steps than three for each project and three, however many it is allowed, and pushes
no project twice.  If it is allowed as many, it is as if there were no limit. -/
theorem tick_ends (hl : sched.HasLease) (rot : Rotation) (limit : Nat)
    {t : Program (TickReport × Rotation)}
    (hr : (sched.tick n rot limit).Reaches Site.NoNewProjects s h t s') :
    Moment.stepsBegun h ≤ 3 * s.store.projects.rows.length + 3 ∧
    (Moment.pushes sched.queue h).Nodup ∧
    ∀ result, t = done result → result.1.scheduled.Nodup ∧
      ∀ limit', 3 * s.store.projects.rows.length + 4 ≤ limit →
        3 * s.store.projects.rows.length + 4 ≤ limit' →
        (sched.tick n rot limit').Reaches Site.NoNewProjects s h (done result) s' := by
  have hstart : OnBudget sched.queue (s.store.projects.rows.map Prod.fst)
      (3 * s.store.projects.rows.length + 4) (3 * (s.store.projects.rows.map Prod.fst).length + 4)
      [] [] [] s := by
    rw [List.length_map]
    exact ⟨List.Subset.refl _, Nat.le_of_eq (Nat.zero_add _), rfl, List.nodup_nil⟩
  obtain ⟨⟨hlooks, hpushes⟩, s₁, -, hpost⟩ :=
    hr.guards (budgets_tick hl rot limit hstart) (fun _ _ _ hi _ => hi) hstart.holds
  refine ⟨Nat.sub_le_of_le_add hlooks, hpushes, ?_⟩
  rintro result rfl
  refine ⟨hpost result rfl, fun limit' hlimit hlimit' => ?_⟩
  obtain ⟨hf, hc⟩ := reaches_done_iff.mp hr
  exact reaches_done_iff.mpr
    ⟨follows_tick_limit hf (hlooks.trans hlimit) (hlooks.trans hlimit'), hc⟩

/-- A tick among two projects with room for one, up to the first push. -/
def pairTick : List Moment × Program (TickReport × Rotation) × Site :=
  (plainScheduler.tick narrowNode .empty 10).ahead 11 pairSite

/-- The rest of it, after the job has been taken and has ended. -/
def pairRest : List Moment × Program (TickReport × Rotation) × Site :=
  let s := (pairTick.2.2.onQueue "repositories" .take).2
  pairTick.2.1.ahead 10 (s.onQueue "repositories" (.finish 1)).2

/-- The second step pushes the other project, and the third finds nothing to do. -/
theorem tick_ends_pair : ∃ result,
    (plainScheduler.tick narrowNode .empty 10).Reaches Site.NoNewProjects pairSite
      (pairTick.1 ++ pairRest.1) (done result) pairRest.2.2 ∧
    result.1 = ⟨none, [1, 2], false⟩ ∧ Moment.stepsBegun (pairTick.1 ++ pairRest.1) = 3 ∧
    (Moment.stepsBegun (pairTick.1 ++ pairRest.1) ≤ 3 * 2 + 3 ∧
      (Moment.pushes "repositories" (pairTick.1 ++ pairRest.1)).Nodup ∧
      (plainScheduler.tick narrowNode .empty 1000).Reaches Site.NoNewProjects pairSite
        (pairTick.1 ++ pairRest.1) (done result) pairRest.2.2) := by
  have hstart : (plainScheduler.tick narrowNode .empty 10).Reaches Site.NoNewProjects pairSite
    [] _ _ := .start
  have htaken := (hstart.ahead 11).others (Site.noNewProjects_onQueue _ "repositories" .take)
  have hended := (htaken.others (Site.noNewProjects_onQueue _ "repositories" (.finish 1))).ahead 10
  have hreport : (value? pairRest.2.1).map Prod.fst = some ⟨none, [1, 2], false⟩ := by decide
  obtain ⟨result, hresult, hreport⟩ := Option.map_eq_some_iff.mp hreport
  have hdone : pairRest.2.1 = done result := eq_done_of_value? hresult
  have hr : (plainScheduler.tick narrowNode .empty 10).Reaches Site.NoNewProjects pairSite
      (pairTick.1 ++ pairRest.1) (done result) pairRest.2.2 := hdone ▸ hended
  obtain ⟨hsteps, hpushes, hlimit⟩ := tick_ends (.inr rfl) .empty 10 hr
  refine ⟨result, hr, hreport, by decide, hsteps, hpushes, ?_⟩
  exact (hlimit result rfl).2 1000 (by decide) (by decide)

end Scheduler

end GeoReplication
