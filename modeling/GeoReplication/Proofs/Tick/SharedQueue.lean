import GeoReplication.Proofs.Program.Follows
import GeoReplication.Proofs.Site.Frame
import GeoReplication.Proofs.Tick.Effects

/-!
# Proofs/Tick/SharedQueue — a tick on a queue that others use

Between any two effects of a tick, executors may take and finish jobs of its queue and
administrators may drop some; everything but this queue may change at will.  The invariant `Tidy`
counts the jobs that the tick has room for and has not pushed yet: nobody else makes the queue
longer, so the room it has seen does not shrink.
-/

namespace GeoReplication

/-- What others do while a program uses a queue: they take and finish its jobs and drop pending
ones, and do as they like elsewhere. -/
inductive Site.QueueUse (name : String) : Site → Site → Prop
  | take (s : Site) : QueueUse name s (s.onQueue name .take).2
  | finish (s : Site) (projectId : Int) : QueueUse name s (s.onQueue name (.finish projectId)).2
  | drop (s : Site) (queue : String) (metadata : List (String × String)) (timeout : Nat)
    (elapsed : Nat → Nat) :
    QueueUse name s { s with queues := (s.queues.dropJobs queue metadata timeout elapsed).2 }
  | besides {s s' : Site} : s'.queues.get? name = s.queues.get? name → QueueUse name s s'

/-- The projects for which a program has pushed jobs, taken in or not. -/
def Moment.pushes (name : String) (h : List Moment) : List Int :=
  h.filterMap fun m => match m.effect with
    | .queue name' (.push job) => if name' = name then some job.projectId else none
    | _ => none

/-- The effect is no copy and changes no queue. -/
def Effect.IsQuiet : Effect → Prop
  | .queue _ .inFlight => True
  | .queue _ (.isScheduled _) => True
  | .queue _ _ => False
  | .dropJobs _ _ _ => False
  | .fetch _ _ _ => False
  | _ => True

theorem Moment.pushes_of_quiet {e : Effect} (he : e.IsQuiet) (name : String) (h : List Moment)
    (s : Site) : Moment.pushes name (h ++ [⟨s, e⟩]) = Moment.pushes name h := by
  rw [Moment.pushes, List.filterMap_append]
  cases e with
  | queue name' c => cases c <;> first | exact List.append_nil _ | exact he.elim
  | _ => exact List.append_nil _

theorem Moment.pushes_push (name : String) (h : List Moment) (s : Site) (job : Job) :
    Moment.pushes name (h ++ [⟨s, .queue name (.push job)⟩]) =
      Moment.pushes name h ++ [job.projectId] := by
  rw [Moment.pushes, List.filterMap_append]
  exact congrArg (_ ++ ·) (by simp)

/-- A lease that has nothing to do with queues. -/
structure Lease.IsQuiet (l : Lease) : Prop where
  obtain (key : String) (ttl : Nat) : (l.obtain key ttl).Every Effect.IsQuiet fun _ => True
  renew (key : String) (ttl : Nat) : (l.renew key ttl).Every Effect.IsQuiet fun _ => True
  cancel (key : String) : (l.cancel key).Every Effect.IsQuiet fun _ => True

theorem Lease.IsQuiet.does {l : Lease} (h : l.IsQuiet) (key : String) (ttl : Nat) :
    l.Does Effect.IsQuiet key ttl := ⟨h.obtain key ttl, h.renew key ttl, h.cancel key⟩

theorem Lease.isQuiet_of_does {l : Lease} (h : ∀ key ttl, l.Does Effect.IsQuiet key ttl) :
    l.IsQuiet :=
  ⟨fun key ttl => (h key ttl).obtain, fun key ttl => (h key ttl).renew,
    fun key => (h key 0).cancel⟩

/-- A lease kept elsewhere is one. -/
theorem Lease.isQuiet_elsewhere : Lease.elsewhere.IsQuiet :=
  isQuiet_of_does fun _ _ => does_elsewhere fun _ => trivial

namespace Scheduler

open Program

variable {name : String} {bound room : Nat} {fresh later : Int → Prop} {h : List Moment}
  {s s' : Site}

/-- No project is twice in the queue, which stays within `bound` even with `room` jobs more, and
none that was pushed is `fresh` or was pushed before. -/
structure Tidy (name : String) (bound room : Nat) (fresh : Int → Prop) (h : List Moment)
    (s : Site) : Prop where
  queue : ∃ q, s.queues.get? name = some q ∧ q.NoneTwice ∧ q.inFlight + room ≤ bound
  once : (Moment.pushes name h).Nodup
  spent : ∀ id ∈ Moment.pushes name h, ¬ fresh id

namespace Tidy

theorem weaken (ht : Tidy name bound room fresh h s) {room' : Nat} (hr : room' ≤ room)
    (hf : ∀ id, later id → fresh id) : Tidy name bound room' later h s where
  queue := by
    obtain ⟨q, hq, hn, hb⟩ := ht.queue
    exact ⟨q, hq, hn, by omega⟩
  once := ht.once
  spent := fun id hid hl => ht.spent id hid (hf id hl)

/-- **What others do**: they keep the queue free of repetitions and make it no longer. -/
theorem others (ht : Tidy name bound room fresh h s) (ho : Site.QueueUse name s s') :
    Tidy name bound room fresh h s' := by
  obtain ⟨⟨q, hq, hn, hb⟩, honce, hspent⟩ := ht
  refine ⟨?_, honce, hspent⟩
  cases ho with
  | take =>
    have hle := q.inFlight_take_le
    exact ⟨q.take.2, by rw [Site.get?_onQueue _ _ _ _ hq, if_pos rfl]; rfl, hn.take, by omega⟩
  | finish projectId =>
    have hle := q.inFlight_finish_le projectId
    exact ⟨q.finish projectId, by rw [Site.get?_onQueue _ _ _ _ hq, if_pos rfl]; rfl,
      hn.finish projectId, by omega⟩
  | drop queue metadata timeout elapsed =>
    obtain ⟨q', hq', rfl | ⟨f, rfl⟩⟩ :=
      Queues.get?_dropJobs s.queues queue metadata timeout elapsed hq
    · exact ⟨_, hq', hn, hb⟩
    · have hle := q.inFlight_drop_le f timeout elapsed
      exact ⟨_, hq', hn.drop f timeout elapsed, by omega⟩
  | besides hsame => exact ⟨q, by rw [hsame, hq], hn, hb⟩

/-- An effect that changes no queue. -/
theorem quiet {e : Effect} (he : e.IsQuiet) (ht : Tidy name bound room fresh h s) :
    Tidy name bound room fresh (h ++ [⟨s, e⟩]) (Moment.after ⟨s, e⟩) := by
  have hpushes := Moment.pushes_of_quiet he name h s
  obtain ⟨⟨q, hq, hn, hb⟩, honce, hspent⟩ := ht
  refine ⟨⟨q, ?_, hn, hb⟩, by rwa [hpushes], by rwa [hpushes]⟩
  cases e with
  | store c => exact (congrArg (·.get? name) (Site.queues_call s c)).trans hq
  | clock => exact hq
  | uptime => exact hq
  | fetch primaryUrl p part => exact he.elim
  | queue name' c =>
    have hget := Site.get?_onQueue s name' name c hq
    cases c with
    | inFlight => exact hget.trans (congrArg some (ite_self _))
    | isScheduled projectId => exact hget.trans (congrArg some (ite_self _))
    | _ => exact he.elim
  | dropJobs name' metadata timeout => exact he.elim
  | lease c => exact (congrArg (·.get? name) (Site.queues_askLease s c)).trans hq

/-- A job pushed where there is room for it, of a project not pushed before. -/
theorem push (job : Job) (ht : Tidy name bound (room + 1) fresh h s) (hf : fresh job.projectId)
    (hl : ∀ id, later id → fresh id ∧ id ≠ job.projectId) :
    Tidy name bound room later (h ++ [⟨s, .queue name (.push job)⟩])
      (Moment.after ⟨s, .queue name (.push job)⟩) := by
  have hpushes := Moment.pushes_push name h s job
  obtain ⟨⟨q, hq, hn, hb⟩, honce, hspent⟩ := ht
  refine ⟨⟨(q.push job).2, ?_, hn.push job, ?_⟩, ?_, ?_⟩
  · exact (Site.get?_onQueue s name name (.push job) hq).trans (by rw [if_pos rfl]; rfl)
  · have hle := q.inFlight_push_le job
    omega
  · rw [hpushes, List.nodup_append]
    refine ⟨honce, List.nodup_singleton _, fun id hid id' hid' he => ?_⟩
    rw [List.mem_singleton.mp hid'] at he
    exact hspent id hid (he ▸ hf)
  · rw [hpushes]
    intro id hid hlater
    rcases List.mem_append.mp hid with hid | hid
    · exact hspent id hid (hl id hlater).1
    · exact (hl id hlater).2 (List.mem_singleton.mp hid)

end Tidy

/-! ## The parts of a tick -/

section Parts

variable {sched : Scheduler} {n : Node} {α : Type} {p : α → Prop}

/-- A tick keeps the invariant at every moment; `post` says what it leaves. -/
abbrev Keeps (name : String) (bound : Nat) (t : Program α)
    (post : α → List Moment → Site → Prop) (h : List Moment) (s : Site) : Prop :=
  t.Guards (Site.QueueUse name) (Tidy name bound 0 fun _ => False)
    (fun r h s => ∀ a, r = .ok a → post a h s) h s

theorem Tidy.invariant (ht : Tidy name bound room fresh h s) :
    Tidy name bound 0 (fun _ => False) h s := ht.weaken (Nat.zero_le _) fun _ => False.elim

theorem Keeps.bind {β : Type} {t : Program α} {next : α → Program β}
    {mid : α → List Moment → Site → Prop} {post : β → List Moment → Site → Prop}
    (ht : Keeps name bound t mid h s)
    (hnext : ∀ a h s, mid a h s → Keeps name bound (next a) post h s) :
    Keeps name bound (t >>= next) post h s := Guards.bind_ok ht hnext

/-- A part that changes no queue. -/
theorem keeps_of_every {t : Program α} (hq : t.Every Effect.IsQuiet p)
    (ht : Tidy name bound room fresh h s) :
    Keeps name bound t (fun a h s => Tidy name bound room fresh h s ∧ p a) h s := by
  refine (hq.guards (P := Tidy name bound room fresh) (fun _ _ _ => Tidy.others)
    (fun _ _ _ => Tidy.quiet) (fun _ _ => Tidy.invariant) ht).imp ?_
  exact fun r h s hr a ha => ⟨hr.1, hr.2 a ha⟩

/-- An effect, at whatever site others have made of this one. -/
theorem keeps_perform {e : Effect} {k : e.Reply → Program α} {post : α → List Moment → Site → Prop}
    (ht : Tidy name bound room fresh h s)
    (hnext : ∀ s', Tidy name bound room fresh h s' →
      Tidy name bound 0 (fun _ => False) (h ++ [⟨s', e⟩]) (Moment.after ⟨s', e⟩) ∧
        Keeps name bound (k (Moment.reply ⟨s', e⟩)) post (h ++ [⟨s', e⟩]) (Moment.after ⟨s', e⟩)) :
    Keeps name bound (perform e k) post h s := by
  intro s' hs
  refine hnext s' ?_
  induction hs with
  | refl => exact ht
  | tail _ ho ih => exact ih.others ho

/-! ### Room, picks and pushes -/

/-- The room that is seen stays room. -/
theorem keeps_room (hcap : n.reposMaxCapacity.toNat ≤ bound)
    (ht : Tidy sched.queue bound 0 fresh h s) :
    Keeps sched.queue bound (sched.room n)
      (fun capacity h s => Tidy sched.queue bound capacity fresh h s) h s := by
  refine keeps_perform ht fun s' ht' => ?_
  have hq : (Effect.queue sched.queue .inFlight).IsQuiet := trivial
  refine ⟨(ht'.quiet hq).invariant, ?_⟩
  rintro _ ⟨⟩
  obtain ⟨q, hq', hn, hb⟩ := ht'.queue
  have hreply : (s'.onQueue sched.queue .inFlight).1 = q.inFlight := Site.onQueue_reply _ _ _ hq'
  have hroom : q.inFlight + (n.reposMaxCapacity.toNat - q.inFlight) ≤ bound := by omega
  have hwide : Tidy sched.queue bound (n.reposMaxCapacity.toNat - q.inFlight) fresh h s' :=
    ⟨⟨q, hq', hn, hroom⟩, ht'.once, ht'.spent⟩
  have hafter := hwide.quiet hq
  rwa [← hreply] at hafter

/-- Each job pushed takes up room for one. -/
theorem keeps_dispatch : ∀ (ids : List Int) {h : List Moment} {s : Site}, ids.Nodup →
    (∀ id, later id → id ∉ ids) →
    Tidy sched.queue bound ids.length (fun id => id ∈ ids ∨ later id) h s →
    Keeps sched.queue bound (sched.dispatch n ids)
      (fun _ h s => Tidy sched.queue bound 0 later h s) h s
  | [], h, s, _, _, ht => by
      rintro _ ⟨⟩
      exact ht.weaken (Nat.le_refl _) fun _ => .inr
  | id :: ids, h, s, hn, hl, ht => by
      obtain ⟨hid, hn⟩ := List.nodup_cons.mp hn
      refine keeps_perform ht fun s₁ h₁ => ?_
      have hquiet : Effect.IsQuiet .clock := trivial
      have hclock := h₁.quiet hquiet
      refine ⟨hclock.invariant, keeps_perform hclock fun s₂ h₂ => ?_⟩
      have hlater : ∀ x, (x ∈ ids ∨ later x) → (x ∈ id :: ids ∨ later x) ∧ x ≠ id := by
        rintro x (hx | hx)
        · exact ⟨.inl (List.mem_cons_of_mem _ hx), by rintro rfl; exact hid hx⟩
        · exact ⟨.inr hx, by rintro rfl; exact hl x hx List.mem_cons_self⟩
      have hpush := h₂.push ⟨id, n.id, s₁.now⟩ (.inl List.mem_cons_self) hlater
      have hdispatch := keeps_dispatch ids hn (fun x hx hmem => hl x hx (.tail _ hmem)) hpush
      have htail : ∀ taken : Bool, Keeps sched.queue bound
          (do let rest ← sched.dispatch n ids; pure (if taken then id :: rest else rest))
          (fun _ h s => Tidy sched.queue bound 0 later h s) _ _ := fun taken =>
        hdispatch.bind fun rest h s hrest => by
          rintro _ ⟨⟩
          exact hrest
      exact ⟨hpush.invariant, htail _⟩

theorem keeps_fill {capacity : Nat} {p : Progress}
    (ht : Tidy sched.queue bound capacity (· ∉ p.seen) h s) :
    Keeps sched.queue bound (sched.fill n capacity p)
      (fun p' h s => Tidy sched.queue bound 0 (· ∉ p'.seen) h s) h s := by
  have hask : ∀ id, (Program.queue sched.queue (.isScheduled id)).Every Effect.IsQuiet
      fun _ => True := fun _ => ⟨trivial, fun _ => trivial⟩
  have hpicks := Source.every_interleave hask capacity p.sources p.seen
  refine Keeps.bind (keeps_of_every hpicks ht) fun r h s hr => ?_
  obtain ⟨ht, hb⟩ := hr
  obtain ⟨new, hnew⟩ := hb.picks.adds
  have hbatch : r.2.batch = new := hnew.batch
  have hlen : new.length ≤ capacity := hbatch ▸ hb.fits (Nat.zero_le _)
  have hrest : Tidy sched.queue bound r.2.batch.length
      (fun id => id ∈ r.2.batch ∨ id ∉ r.2.seen) h s := by
    rw [hbatch]
    refine ht.weaken hlen fun id hid => ?_
    rcases hid with hid | hid
    · exact hnew.fresh id hid
    · exact fun hs => hid (hnew.mem_seen.mpr (.inr hs))
  refine Keeps.bind (keeps_dispatch r.2.batch ?_ ?_ hrest) ?_
  · rw [hbatch]
    exact hnew.nodup
  · intro id hid hmem
    rw [hbatch] at hmem
    exact hid (hnew.mem_seen.mpr (.inl hmem))
  · rintro taken h s ht _ ⟨⟩
    exact ht

/-! ### The whole tick -/

/-- Any number of steps. -/
theorem keeps_steps (hl : sched.lease.IsQuiet) (hcap : n.reposMaxCapacity.toNat ≤ bound)
    (deadline : Nat) : ∀ (count : Nat) (p : Progress) {h : List Moment} {s : Site},
    Tidy sched.queue bound 0 (· ∉ p.seen) h s →
    Keeps sched.queue bound (sched.steps n deadline count p)
      (fun _ h s => Tidy sched.queue bound 0 (fun _ => False) h s) h s
  | 0, _, _, _, ht => by
      rintro _ ⟨⟩
      exact ht.invariant
  | count + 1, p, h, s, ht => by
      have huptime : Program.uptime.Every Effect.IsQuiet fun _ => True := Every.uptime trivial
      refine Keeps.bind (keeps_of_every huptime ht) fun now h s hnow => ?_
      split
      · rintro _ ⟨⟩
        exact hnow.1.invariant
      refine Keeps.bind (keeps_of_every (every_keepsLease (hl.does _ _)) hnow.1)
        fun held h s hheld => ?_
      split
      · rintro _ ⟨⟩
        exact hheld.1.invariant
      refine Keeps.bind (keeps_room hcap hheld.1) fun capacity h s hroom => ?_
      split
      · rintro _ ⟨⟩
        exact hroom.invariant
      have hlookUps : (sched.refillAll (sched.filter n) p.sources).Every Effect.IsQuiet
          fun ss => ∀ src ∈ ss, src.category ∈ p.sources.map (·.category) :=
        every_refillAll (fun _ _ _ => trivial) fun src hsrc => List.mem_map_of_mem hsrc
      refine Keeps.bind (keeps_of_every hlookUps hroom) fun ss h s hss => ?_
      split
      · rintro _ ⟨⟩
        exact hss.1.invariant
      have hsame : Tidy sched.queue bound capacity (· ∉ ({ p with sources := ss } : Progress).seen)
          h s := hss.1
      exact Keeps.bind (keeps_fill hsame) fun p' h s hp' =>
        keeps_steps hl hcap deadline count p' hp'

theorem keeps_schedule (hl : sched.lease.IsQuiet) (hcap : n.reposMaxCapacity.toNat ≤ bound)
    (r : Rotation) (limit : Nat) (ht : Tidy sched.queue bound 0 (fun _ => True) h s) :
    Keeps sched.queue bound (sched.schedule n r limit)
      (fun _ h s => Tidy sched.queue bound 0 (fun _ => False) h s) h s := by
  have huptime : Program.uptime.Every Effect.IsQuiet fun _ => True := Every.uptime trivial
  refine Keeps.bind (keeps_of_every huptime ht) fun now h s hnow => ?_
  split
  · rintro _ ⟨⟩
  split
  · rintro _ ⟨⟩
    exact hnow.1.invariant
  -- nothing has been picked yet
  have hfresh : Tidy sched.queue bound 0
      (· ∉ (Progress.mk (sources sched.config.features n r) [] []).seen) h s :=
    hnow.1.weaken (Nat.le_refl _) fun _ _ => trivial
  refine Keeps.bind (keeps_steps hl hcap _ limit _ hfresh) ?_
  rintro ⟨ending, p⟩ h s ht _ ⟨⟩
  exact ht

theorem keeps_tick (hl : sched.lease.IsQuiet) (hcap : n.reposMaxCapacity.toNat ≤ bound)
    (r : Rotation) (limit : Nat) (ht : Tidy sched.queue bound 0 (fun _ => True) h s) :
    Keeps sched.queue bound (sched.tick n r limit) (fun _ _ _ => True) h s := by
  refine Keeps.bind (keeps_of_every (every_obstacle trivial) ht) fun obstacle h s hs => ?_
  cases obstacle with
  | some reason => exact fun _ _ => trivial
  | none =>
    refine Keeps.bind (keeps_of_every (hl.obtain _ _) hs.1) fun held h s hheld => ?_
    split
    · exact fun _ _ => trivial
    refine Keeps.bind (keeps_schedule hl hcap r limit hheld.1) fun result h s hresult => ?_
    exact Keeps.bind (keeps_of_every (every_cancel (hl.does _ 0)) hresult)
      fun _ _ _ _ _ _ => trivial

end Parts

/-! ## Every moment -/

/-- **A tick on a shared queue**: at every moment no project is twice in the queue, the queue is no
longer than it was or than the node has capacity for, and no project has been pushed twice. -/
theorem queue_during_tick (sched : Scheduler) (n : Node) (r : Rotation) (limit : Nat)
    {q : JobQueue} {t : Program (TickReport × Rotation)} (hl : sched.lease.IsQuiet)
    (hq : s.queues.get? sched.queue = some q) (hn : q.NoneTwice)
    (hr : (sched.tick n r limit).Reaches (Site.QueueUse sched.queue) s h t s') :
    (∃ q', s'.queues.get? sched.queue = some q' ∧ q'.NoneTwice ∧
      q'.inFlight ≤ max q.inFlight n.reposMaxCapacity.toNat) ∧
    (Moment.pushes sched.queue h).Nodup := by
  have hstart : Tidy sched.queue (max q.inFlight n.reposMaxCapacity.toNat) 0 (fun _ => True) [] s :=
    ⟨⟨q, hq, hn, Nat.le_max_left _ _⟩, List.nodup_nil, by simp [Moment.pushes]⟩
  have hkeeps := keeps_tick hl (Nat.le_max_right _ _) r limit hstart
  obtain ⟨⟨hqueue, honce, -⟩, -⟩ :=
    hr.guards hkeeps (fun _ _ _ => Tidy.others) hstart.invariant
  exact ⟨hqueue, honce⟩

/-- A site with two projects that were never copied, and an empty queue. -/
def pairSite : Site :=
  let project : ProjectRow := ⟨1, "p", "g/p", "default", false, none, none, none, ""⟩
  .start .epoch
    { Store.empty with
      nodes := Store.Numbered.empty.insert
        ⟨⟨"http", "primary", 80, ""⟩, true, true, 25, 10, "", ""⟩
      projects := (Store.Numbered.empty.insert project).insert project }
    [("repositories", .empty)]

/-- A secondary with room for one job. -/
def narrowNode : Node :=
  ⟨2, ⟨"http", "secondary", 80, ""⟩, .secondary, true, [], 1, 10, .epoch, .epoch⟩

/-- Looks for projects that were never copied, or failed. -/
def plainScheduler : Scheduler :=
  ⟨{ Config.standard with features := ⟨false, false, false⟩ }, ["default"], .elsewhere,
    "repositories"⟩

/-- The first job is taken and ends while the tick goes on, which then pushes the second. -/
theorem queue_during_tick_pair : ∃ h t s,
    (plainScheduler.tick narrowNode .empty 10).Reaches (Site.QueueUse "repositories") pairSite
      h t s ∧
    Moment.pushes "repositories" h = [1, 2] ∧
    s.queues.get? "repositories" = some ⟨[⟨2, 2, .epoch⟩], []⟩ ∧
    ((∃ q, s.queues.get? "repositories" = some q ∧ q.NoneTwice ∧ q.inFlight ≤ 1) ∧
      (Moment.pushes "repositories" h).Nodup) := by
  have hstart : (plainScheduler.tick narrowNode .empty 10).Reaches
    (Site.QueueUse "repositories") pairSite [] _ _ := .start
  have hfirst := hstart.ahead 11
  have htaken := (hfirst.others (.take _)).others (.finish _ 1)
  have hsecond := htaken.ahead 20
  refine ⟨_, _, _, hsecond, by decide, by decide, ?_⟩
  exact queue_during_tick plainScheduler narrowNode .empty 10 Lease.isQuiet_elsewhere
    (q := .empty) (by decide) (by decide) hsecond

end Scheduler

end GeoReplication
