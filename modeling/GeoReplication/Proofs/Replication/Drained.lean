import GeoReplication.Proofs.Program.Sober
import GeoReplication.Proofs.Queue.Dropped
import GeoReplication.Proofs.Replication.SizeForgotten
import GeoReplication.Proofs.Replication.WithoutWikis
import GeoReplication.Site.Workers

/-!
# Proofs/Replication/Drained — a queue is drained, whatever becomes of its jobs

    take ── attempt ──▸ outcome or error ── finish ── take ── attempt ──▸ …

Three inputs.  An attempt never overflows, so whatever it ends with is caught (`sober_run`).  It has
nothing to do with queues: with others in their place it goes the same way and leaves them
(`run_withQueues`).  And the project of a job that is taken was not running, so finishing the job
leaves the running projects as they were (`JobQueue.NoneTwice.finish_taken`).  Hence every pending
job is attempted, once and in order, and what is left is what the attempts leave one after another
(`Queues.Reached.drains`).
-/

namespace GeoReplication

open Relation Program

/-! ## Queues put aside -/

/-- The effect does nothing to queues. -/
def Effect.SparesQueues : Effect → Prop
  | .queue _ _ => False
  | .dropJobs _ _ _ => False
  | _ => True

namespace Site

/-- The site with other queues. -/
def withQueues (s : Site) (queues : Queues) : Site := { s with queues }

variable {s : Site} {qs : Queues}

theorem onQueue_eq {name : String} {q : JobQueue} (hq : s.queues.get? name = some q)
    (c : QueueCall) :
    s.onQueue name c = ((c.run q).1, s.withQueues (s.queues.set name (c.run q).2)) := by
  rw [onQueue, hq]
  rfl

theorem call_withQueues (s : Site) (qs : Queues) (c : Call) :
    (s.withQueues qs).call c = ((s.call c).1, (s.call c).2.withQueues qs) := by
  simp only [call, withQueues]
  split <;> rfl

theorem askLease_withQueues (s : Site) (qs : Queues) (c : LeaseCall) :
    (s.withQueues qs).askLease c = ((s.askLease c).1, (s.askLease c).2.withQueues qs) := by
  cases c with
  | obtain key ttl => rfl
  | renew key ttl =>
    simp only [askLease, withQueues, pass]
    split <;> rfl
  | cancel key =>
    simp only [askLease, withQueues]
    split <;> rfl

theorem meanwhile_withQueues (s : Site) (qs : Queues) (c : Copying) :
    (s.withQueues qs).meanwhile c = ((s.meanwhile c).1, (s.meanwhile c).2.withQueues qs) := by
  have hnow : (s.withQueues qs).now = s.now := rfl
  rw [meanwhile, meanwhile, hnow]
  by_cases htouch : c.rule.touch = true
  · rw [if_pos htouch, if_pos htouch, call_withQueues]
    rcases s.call (.touchProject c.project.id c.part s.now) with ⟨f | ⟨⟩, s'⟩
    · rfl
    · cases c.rule.resyncNode with
      | none => rfl
      | some nodeId => exact s'.call_withQueues qs _
  · rw [if_neg htouch, if_neg htouch]
    cases c.rule.resyncNode with
    | none => rfl
    | some nodeId => exact s.call_withQueues qs _

theorem endFetch_withQueues (s : Site) (qs : Queues) (c : Copying) :
    (s.withQueues qs).endFetch c = ((s.endFetch c).1, (s.endFetch c).2.withQueues qs) := by
  have hnote : (s.withQueues qs).note c false = (s.note c false).withQueues qs := rfl
  rw [endFetch, endFetch, hnote, meanwhile_withQueues]
  rcases (s.note c false).meanwhile c with ⟨f | ⟨⟩, s'⟩
  · rfl
  · cases c.rule.error <;> rfl

/-- **An effect that does nothing to queues** is answered the same with others in their place, and
leaves these. -/
theorem perform_withQueues {e : Effect} (he : e.SparesQueues) (s : Site) (qs : Queues) :
    (s.withQueues qs).perform e = ((s.perform e).1, (s.perform e).2.withQueues qs) := by
  cases e with
  | store c => exact s.call_withQueues qs c
  | clock => rfl
  | uptime => rfl
  | fetch primaryUrl p part => exact (s.beginFetch primaryUrl p part).2.endFetch_withQueues qs _
  | queue name c => exact he.elim
  | dropJobs name metadata timeout => exact he.elim
  | lease c => exact s.askLease_withQueues qs c

theorem queues_perform {e : Effect} (he : e.SparesQueues) (s : Site) :
    (s.perform e).2.queues = s.queues :=
  congrArg (fun r => r.2.queues) (perform_withQueues he s s.queues)

end Site

/-- So is a program of such effects. -/
theorem Program.Every.run_withQueues {α : Type} {p : α → Prop} {t : Program α}
    (ht : t.Every Effect.SparesQueues p) (s : Site) (qs : Queues) :
    t.run (s.withQueues qs) = ((t.run s).1, (t.run s).2.withQueues qs) := by
  induction t generalizing s with
  | done a => rfl
  | failed f => rfl
  | perform e k ih =>
    rw [run_perform, run_perform, Site.perform_withQueues ht.1]
    exact ih _ (ht.2 _) _

theorem Program.Every.queues_run {α : Type} {p : α → Prop} {t : Program α}
    (ht : t.Every Effect.SparesQueues p) (s : Site) :
    (t.run s).2.queues = s.queues :=
  congrArg (fun r => r.2.queues) (ht.run_withQueues s s.queues)

/-! ## Attempts -/

namespace Attempt

variable {f : Features} {queue : String} {s : Site}

theorem every_part_sparesQueues (n : Node) (p : Project) (primaryUrl : String) (part : Part) :
    (Attempt.part n p primaryUrl part).Every Effect.SparesQueues fun _ => True := by
  refine Every.bind (p := fun _ => True) ⟨trivial, fun _ => trivial⟩ fun started _ => ?_
  have hfetch : (Program.fetch primaryUrl p part).Every Effect.SparesQueues
      fun _ => True := ⟨trivial, fun r => .ofExcept r⟩
  refine hfetch.attempt.bind fun r _ => ?_
  cases r with
  | ok _ => exact Every.bind (p := fun _ => True) (.call trivial) fun _ _ => trivial
  | error e => exact Every.bind (p := fun _ => True) (.call trivial) fun _ _ => trivial

theorem every_finish_sparesQueues (o : Outcome) (id : Int) :
    (finish o id).Every Effect.SparesQueues fun _ => True := by
  rw [finish]
  split
  · exact Every.bind (p := fun _ => True) (.call trivial) fun _ _ => trivial
  · trivial

/-- An attempt does nothing to queues. -/
theorem every_run_sparesQueues (f : Features) (nodeId projectId : Int) :
    (run f nodeId projectId).Every Effect.SparesQueues fun _ => True := by
  refine Every.bind (p := fun _ => True) (.call trivial) fun o _ => ?_
  refine (every_orElse _ o).bind fun n _ => ?_
  refine Every.bind (p := fun _ => True) (.call trivial) fun o _ => ?_
  refine (every_orElse _ o).bind fun p _ => ?_
  refine Every.bind (p := fun _ => True) (.call trivial) fun o _ => ?_
  refine (every_orElse _ o).bind fun primary _ => ?_
  change (copies f n p primary.url).Every _ _
  rw [copies_eq]
  refine (every_part_sparesQueues n p primary.url .repository).bind fun repository _ => ?_
  rw [afterRepository]
  split
  · exact (every_part_sparesQueues n p primary.url .wiki).bind fun wiki _ =>
      every_finish_sparesQueues _ _
  · exact every_finish_sparesQueues _ _

section Sober

variable {C : Time.Instant → Nat → Prop}

theorem sober_fetch (primaryUrl : String) (p : Project) (part : Part) :
    Sober (fun _ _ => True) (fun _ => True) (Program.fetch primaryUrl p part) := fun _ _ =>
  .fetch (I := fun _ => True) trivial (fun _ _ _ _ => trivial) fun s _ _ =>
    ⟨trivial, fun _ _ => trivial, s.fetch_ne_overflow primaryUrl p part⟩

theorem sober_part (n : Node) (p : Project) (primaryUrl : String) (part : Part) :
    Sober (fun _ _ => True) (fun _ => True) (Attempt.part n p primaryUrl part) := by
  refine Sober.clock.bind fun started _ => ?_
  refine (sober_fetch primaryUrl p part).attempt.bind fun r _ => ?_
  -- what is recorded is recorded without a lease, so nothing of it overflows
  have hrecord {c : Call} {state : SyncState} (hc : ∀ now s o, (c.run now s).1 ≠
      .error (.overflow o)) :
      Sober (fun _ _ => True) (fun _ => True) (Program.call c >>= fun _ => pure state) :=
    Sober.bind (p := fun _ => True) (.call (fun _ _ _ _ => trivial) fun s _ => hc s.now s.store)
      fun _ _ => .pure trivial
  cases r with
  | ok _ =>
    exact hrecord (c := .recordSyncSuccess n.id p.id part started) fun _ _ =>
      Call.lift_ne_overflow _ _
  | error e =>
    exact hrecord (c := .recordSyncFailure n.id p.id part (truncate e.message)) fun _ _ =>
      Call.lift_ne_overflow _ _

theorem sober_finish (o : Outcome) (id : Int) :
    Sober C (fun _ => True) (finish o id) := by
  rw [finish]
  split
  · exact Sober.bind (p := fun _ => True) (.call (c := .expireRepositoryCache id)
      (fun _ _ _ _ => trivial) fun _ _ => Call.lift_ne_overflow _ _) fun _ _ => .pure trivial
  · exact .pure trivial

/-- **An attempt never overflows**, whatever others do meanwhile. -/
theorem sober_run (f : Features) (nodeId projectId : Int) :
    Sober (fun _ _ => True) (fun _ => True) (run f nodeId projectId) := by
  refine (Sober.look rfl).bind fun o _ => (Sober.orElse _ o).bind fun n _ => ?_
  refine (Sober.look rfl).bind fun o _ => (Sober.orElse _ o).bind fun p _ => ?_
  refine (Sober.look rfl).bind fun o _ => (Sober.orElse _ o).bind fun primary _ => ?_
  change Sober _ _ (copies f n p primary.url)
  rw [copies_eq]
  refine (sober_part n p primary.url .repository).bind fun repository _ => ?_
  rw [afterRepository]
  split
  · exact (sober_part n p primary.url .wiki).bind fun wiki _ => sober_finish _ _
  · exact sober_finish _ _

end Sober

/-- So it ends with an outcome or with an error. -/
theorem exists_end {nodeId projectId : Int} {h : List Moment} {r : Except Failure Outcome}
    (hr : (run f nodeId projectId).Follows h r) :
    ∃ o : Except Error Outcome, r = o.mapError .error := by
  obtain ⟨s', hend⟩ := Secures.of_follows (fun _ _ => trivial)
    (sober_run f nodeId projectId (.start .epoch .empty []) trivial) hr
  rcases r with (e | o) | o
  · exact ⟨.error e, rfl⟩
  · exact absurd rfl (hend.sober o)
  · exact ⟨.ok o, rfl⟩

/-- Alone, an attempt whose errors are caught leaves what the attempt leaves. -/
theorem exists_run_attempt (f : Features) (nodeId projectId : Int) (s : Site) :
    ∃ o : Except Error Outcome, (run f nodeId projectId).attempt.run s =
      (.ok o, ((run f nodeId projectId).run s).2) := by
  have hend := (sober_run f nodeId projectId s trivial).run (throughout_of fun _ _ => trivial)
  rw [run_attempt]
  rcases hrun : (run f nodeId projectId).run s with ⟨(e | o) | o, s'⟩
  · exact ⟨.error e, rfl⟩
  · rw [hrun] at hend
    exact absurd rfl (hend.sober o)
  · exact ⟨.ok o, rfl⟩

/-! ## Jobs alone -/

/-- What is left by the attempts of some jobs, one after another, however each of them ends. -/
def after (f : Features) (jobs : List Job) (s : Site) : Site :=
  jobs.foldl (fun s job => ((run f job.nodeId job.projectId).run s).2) s

theorem after_withQueues (f : Features) (qs : Queues) : ∀ (jobs : List Job) (s : Site),
    after f jobs (s.withQueues qs) = (after f jobs s).withQueues qs
  | [], _ => rfl
  | job :: jobs, s => by
      have hrun := (every_run_sparesQueues f job.nodeId job.projectId).run_withQueues s qs
      simp only [after, List.foldl_cons, hrun]
      exact after_withQueues f qs jobs _

/-- **One job alone**: its attempt, and then its project does not run any more. -/
theorem run_perform_job {q : JobQueue} {job : Job} (hq : s.queues.get? queue = some q) :
    (perform f queue job).run s = (.ok (), ((run f job.nodeId job.projectId).run s).2.withQueues
      (s.queues.set queue (q.finish job.projectId))) := by
  obtain ⟨o, hrun⟩ := exists_run_attempt f job.nodeId job.projectId s
  have hqueues := (every_run_sparesQueues f job.nodeId job.projectId).queues_run s
  rw [perform, run_bind_ok hrun, run_queue, Site.onQueue, hqueues, hq]
  rfl

/-- Nothing is left to take. -/
theorem run_drain_nil {running : List Int} (hq : s.queues.get? queue = some ⟨[], running⟩)
    (limit : Nat) : (drain f queue (limit + 1)).run s =
      (.ok 0, s.withQueues (s.queues.set queue ⟨[], running⟩)) := by
  rw [drain, run_bind, run_queue, Site.onQueue_eq hq]
  rfl

/-- A job is taken and performed, and then the others are. -/
theorem run_drain_cons {job : Job} {jobs : List Job} {running : List Int}
    (hnone : (⟨job :: jobs, running⟩ : JobQueue).NoneTwice)
    (hq : s.queues.get? queue = some ⟨job :: jobs, running⟩) (limit : Nat) :
    ∃ qs, (drain f queue (limit + 1)).run s = ((drain f queue limit >>= fun count =>
        pure (count + 1)).run (((run f job.nodeId job.projectId).run s).2.withQueues qs)) ∧
      ∀ name, qs.get? name =
        if name = queue then some ⟨jobs, running⟩ else s.queues.get? name := by
  let taken := s.queues.set queue ⟨jobs, running ++ [job.projectId]⟩
  have hqueue : s.onQueue queue .take = (some job, s.withQueues taken) := by
    have hrun : QueueCall.take.run ⟨job :: jobs, running⟩ =
        (some job, ⟨jobs, running ++ [job.projectId]⟩) := hnone.take_cons
    rw [Site.onQueue_eq hq, hrun]
  have htaken : (s.withQueues taken).queues.get? queue =
      some ⟨jobs, running ++ [job.projectId]⟩ := by
    change (s.queues.set queue _).get? queue = _
    rw [Queues.get?_set, if_pos rfl, hq]
    rfl
  refine ⟨taken.set queue ⟨jobs, running⟩, ?_, fun name => ?_⟩
  · rw [drain, run_bind, run_queue, hqueue]
    change (perform f queue job >>= fun _ => drain f queue limit >>= fun count =>
      pure (count + 1)).run (s.withQueues taken) = _
    rw [run_bind_ok (run_perform_job htaken), hnone.finish_taken,
      (every_run_sparesQueues f job.nodeId job.projectId).run_withQueues]
    rfl
  · rw [Queues.get?_set, Queues.get?_set]
    split
    · next hname =>
      rw [hname, hq]
      rfl
    · rfl

/-- **All jobs alone**, by how many there are. -/
theorem run_drain {running : List Int} {jobs : List Job} {limit : Nat}
    (hnone : (⟨jobs, running⟩ : JobQueue).NoneTwice)
    (hq : s.queues.get? queue = some ⟨jobs, running⟩) (hlimit : jobs.length ≤ limit) :
    ∃ qs, (drain f queue limit).run s = (.ok jobs.length, (after f jobs s).withQueues qs) ∧
      ∀ name, qs.get? name = if name = queue then some ⟨[], running⟩ else s.queues.get? name := by
  induction jobs generalizing s limit with
  | nil =>
    cases limit with
    | zero =>
      refine ⟨s.queues, rfl, fun name => ?_⟩
      split
      · next hname => rw [hname, hq]
      · rfl
    | succ limit =>
      refine ⟨_, run_drain_nil hq limit, fun name => ?_⟩
      rw [Queues.get?_set]
      split
      · next hname =>
        rw [hname, hq]
        rfl
      · rfl
  | cons job jobs ih =>
    obtain ⟨limit, rfl⟩ := Nat.exists_eq_add_one_of_ne_zero (Nat.ne_zero_of_lt hlimit)
    obtain ⟨qs, hrun, hqs⟩ := run_drain_cons (f := f) hnone hq limit
    obtain ⟨qs', hrest, hqs'⟩ := ih (s := ((run f job.nodeId job.projectId).run s).2.withQueues qs)
      hnone.tail ((hqs queue).trans (if_pos rfl)) (Nat.le_of_succ_le_succ hlimit)
    refine ⟨qs', ?_, fun name => ?_⟩
    · rw [hrun, run_bind_ok hrest, after_withQueues]
      rfl
    · rw [hqs']
      split
      · rfl
      · next hname => exact (hqs name).trans (if_neg hname)

/-! ## Jobs while others act -/

/-- Jobs are performed one after another: each is taken, its attempt goes on to an end of its own,
whatever that is, and the job is finished.  It may be asked once more whether there is a job. -/
inductive Performs (f : Features) (queue : String) (running : List Int) :
    List Job → List Moment → Prop
  | none : Performs f queue running [] []
  | last {s : Site} : s.queues.get? queue = some ⟨[], running⟩ →
      Performs f queue running [] [⟨s, .queue queue .take⟩]
  | job {job : Job} {jobs : List Job} {s s' : Site} {h h' : List Moment}
      {o : Except Error Outcome} : s.queues.get? queue = some ⟨job :: jobs, running⟩ →
      (run f job.nodeId job.projectId).Follows h (o.mapError .error) →
      s'.queues.get? queue = some ⟨jobs, running ++ [job.projectId]⟩ →
      Performs f queue running jobs h' → Performs f queue running (job :: jobs)
        (⟨s, .queue queue .take⟩ :: (h ++ ⟨s', .queue queue (.finish job.projectId)⟩ :: h'))

section Others

variable {others : Site → Site → Prop} {h : List Moment}
  (hothers : ∀ s s', others s s' → s'.queues.get? queue = s.queues.get? queue)

include hothers

theorem get?_of_others {s' : Site} (hs : ReflTransGen others s s') :
    s'.queues.get? queue = s.queues.get? queue :=
  kept_by_others (I := fun s' => s'.queues.get? queue = s.queues.get? queue)
    (fun s₁ s₂ hsame ho => (hothers s₁ s₂ ho).trans hsame) rfl hs

/-- An attempt goes on to an end of its own, and the queue stays what it was. -/
theorem guards_attempt {q : JobQueue} (hq : s.queues.get? queue = some q)
    (nodeId projectId : Int) :
    (run f nodeId projectId).attempt.Guards others (fun _ _ => True) (fun r h' s' =>
      ∃ ms, ∃ o : Except Error Outcome, r = .ok o ∧ h' = h ++ ms ∧
        (run f nodeId projectId).Follows ms (o.mapError .error) ∧
        s'.queues.get? queue = some q) h s := by
  have hown (h : List Moment) (s : Site) (e : Effect) (he : e.SparesQueues)
      (hs : s.queues.get? queue = some q) : (Moment.after ⟨s, e⟩).queues.get? queue = some q := by
    rw [Moment.after, Site.queues_perform he, hs]
  have hrun : (run f nodeId projectId).Guards others (fun _ _ => True) (fun r h' s' =>
      ∃ ms, h' = h ++ ms ∧ (run f nodeId projectId).Follows ms r ∧
        s'.queues.get? queue = some q) h s :=
    (every_run_sparesQueues f nodeId projectId).guards_follows
      (P := fun _ s => s.queues.get? queue = some q)
      (fun _ s s' hs ho => (hothers s s' ho).trans hs) hown (fun _ _ _ => trivial) hq
  refine .attempt (hrun.imp ?_)
  rintro r h' s' ⟨ms, rfl, hms, hq'⟩
  obtain ⟨o, rfl⟩ := exists_end hms
  cases o with
  | error e => exact ⟨ms, .error e, rfl, rfl, hms, hq'⟩
  | ok o => exact ⟨ms, .ok o, rfl, rfl, hms, hq'⟩

/-- **One job**: its attempt goes on to an end of its own, and the job is finished. -/
theorem guards_perform {q : JobQueue} (hq : s.queues.get? queue = some q) (job : Job) :
    (perform f queue job).Guards others (fun _ _ => True) (fun r h' s' => r = .ok () ∧
      s'.queues.get? queue = some (q.finish job.projectId) ∧
      ∃ ms s₁, ∃ o : Except Error Outcome,
        h' = h ++ (ms ++ [⟨s₁, .queue queue (.finish job.projectId)⟩]) ∧
        (run f job.nodeId job.projectId).Follows ms (o.mapError .error) ∧
        s₁.queues.get? queue = some q) h s := by
  refine Guards.bind ((guards_attempt hothers hq job.nodeId job.projectId).imp ?_)
  rintro r h' s₁ ⟨ms, o, rfl, rfl, hms, hq₁⟩
  rw [Ends]
  refine Guards.queue (c := .finish job.projectId) fun s₂ hs₂ => ⟨trivial, ?_⟩
  have hq₂ := (get?_of_others hothers hs₂).trans hq₁
  refine ⟨rfl, ?_, ms, s₂, o, List.append_assoc _ _ _, hms, hq₂⟩
  rw [Site.get?_onQueue _ _ _ _ hq₂, if_pos rfl]
  rfl

/-- **All jobs**: none is left, and what was done is that they were performed. -/
theorem guards_drain {running : List Int} {jobs : List Job} {limit : Nat}
    (hnone : (⟨jobs, running⟩ : JobQueue).NoneTwice)
    (hq : s.queues.get? queue = some ⟨jobs, running⟩) (hlimit : jobs.length ≤ limit) :
    (drain f queue limit).Guards others (fun _ _ => True) (fun r h' s' => r = .ok jobs.length ∧
      s'.queues.get? queue = some ⟨[], running⟩ ∧
      ∃ ms, h' = h ++ ms ∧ Performs f queue running jobs ms) h s := by
  induction jobs generalizing s limit h with
  | nil =>
    cases limit with
    | zero => exact ⟨rfl, hq, [], (List.append_nil h).symm, .none⟩
    | succ limit =>
      refine Guards.bind (.queue fun s₁ hs₁ => ⟨trivial, ?_⟩)
      have hq₁ := (get?_of_others hothers hs₁).trans hq
      rw [s₁.onQueue_reply queue .take hq₁]
      refine ⟨rfl, ?_, _, rfl, .last hq₁⟩
      rw [Site.get?_onQueue _ _ _ _ hq₁, if_pos rfl]
      rfl
  | cons job jobs ih =>
    obtain ⟨limit, rfl⟩ := Nat.exists_eq_add_one_of_ne_zero (Nat.ne_zero_of_lt hlimit)
    refine Guards.bind (.queue fun s₁ hs₁ => ⟨trivial, ?_⟩)
    have hq₁ := (get?_of_others hothers hs₁).trans hq
    have hreply : (s₁.onQueue queue .take).1 = some job :=
      (s₁.onQueue_reply queue .take hq₁).trans (congrArg Prod.fst hnone.take_cons)
    have hleft : (s₁.onQueue queue .take).2.queues.get? queue =
        some ⟨jobs, running ++ [job.projectId]⟩ := by
      rw [Site.get?_onQueue _ _ _ _ hq₁, if_pos rfl]
      exact congrArg (fun r => some r.2) hnone.take_cons
    rw [hreply]
    refine Guards.bind ((guards_perform hothers hleft job).imp ?_)
    rintro r h' s₂ ⟨rfl, hq₂, ms, s₃, o, rfl, hms, hq₃⟩
    rw [hnone.finish_taken] at hq₂
    refine Guards.bind ((ih hnone.tail hq₂ (Nat.le_of_succ_le_succ hlimit)).imp ?_)
    rintro r h' s₄ ⟨rfl, hq₄, ms', rfl, hms'⟩
    exact ⟨rfl, hq₄, _, by simp, .job hq₁ hms hq₃ hms'⟩

end Others

end Attempt

/-- **One bad job never aborts the others.**  In queues that come to be, draining one performs every
pending job, whatever the store answers, however the copies end and whatever is missing; the limit
only has to be enough for all of them, as that of `Site.drain` is.

Alone it ends with the number of jobs, and leaves what is left by their attempts one after another,
where an attempt that ends with an error leaves what it has done until then.  The queue has nothing
pending and the projects running that ran before; the other queues are what they were.

While others change anything but this queue, down to what is answered next, every end of it is with
the number of jobs, nothing pending and the same projects running; and what it has done is to take
each job in order, to go on with its attempt to an end of its own, and to finish the job. -/
theorem Queues.Reached.drains {f : Features} {queue : String} {s : Site} {q : JobQueue}
    {limit : Nat} (h : s.queues.Reached) (hq : s.queues.get? queue = some q)
    (hlimit : q.pending.length ≤ limit) :
    (∃ qs, (Attempt.drain f queue limit).run s =
        (.ok q.pending.length, { Attempt.after f q.pending s with queues := qs }) ∧
      ∀ name, qs.get? name = if name = queue then some { q with pending := [] }
        else s.queues.get? name) ∧
    ∀ others : Site → Site → Prop,
      (∀ s s', others s s' → s'.queues.get? queue = s.queues.get? queue) → ∀ ms r s',
        (Attempt.drain f queue limit).Reaches others s ms (Program.ofExcept r) s' →
          r = .ok q.pending.length ∧ s'.queues.get? queue = some { q with pending := [] } ∧
          Attempt.Performs f queue q.running q.pending ms := by
  have hnone := h.noneTwice queue q hq
  refine ⟨Attempt.run_drain hnone hq hlimit, fun others hothers ms r s' hend => ?_⟩
  obtain ⟨-, s₁, hs, hguards⟩ := hend.guards
    (Attempt.guards_drain (h := []) (f := f) hothers hnone hq hlimit) (fun _ _ _ _ _ => trivial)
    trivial
  obtain ⟨hcount, hleft, ms', rfl, hperforms⟩ : r = .ok q.pending.length ∧
      s₁.queues.get? queue = some { q with pending := [] } ∧
      ∃ ms', ms = [] ++ ms' ∧ Attempt.Performs f queue q.running q.pending ms' := by
    cases r <;> exact hguards
  exact ⟨hcount, (Attempt.get?_of_others hothers hs).trans hleft, hperforms⟩

/-- The site of `refusedWiki` with three jobs: the project of the first is not known, nor is the
node of the last.  One more project is running. -/
def jobsOfAllKinds : Site :=
  { Attempt.refusedWiki with
    queues := [("sync", ⟨[⟨7, 2, .epoch⟩, ⟨1, 2, .epoch⟩, ⟨2, 5, .epoch⟩], [9]⟩)] }

/-- The first and the last job come to nothing, and the one between them is attempted all the same:
its repository is copied, and its wiki refused. -/
theorem Queues.drains_past_errors : ∃ s', jobsOfAllKinds.drain .all "sync" = (.ok 3, s') ∧
    s'.queues.get? "sync" = some ⟨[], [9]⟩ ∧ s'.store.size? 1 = none ∧
    ∀ ms r s', (Attempt.drain .all "sync" 4).Reaches (fun s s' => s'.queues = s.queues)
      jobsOfAllKinds ms (Program.ofExcept r) s' → r = .ok 3 := by
  have hreached : jobsOfAllKinds.queues.Reached := by
    have hother := (Queues.Reached.empty ["sync"]).use "sync" (.push ⟨9, 2, .epoch⟩) rfl
    have hrunning := hother.use "sync" .take rfl
    have hfirst := hrunning.use "sync" (.push ⟨7, 2, .epoch⟩) rfl
    have hsecond := hfirst.use "sync" (.push ⟨1, 2, .epoch⟩) rfl
    exact hsecond.use "sync" (.push ⟨2, 5, .epoch⟩) rfl
  have hq : jobsOfAllKinds.queues.get? "sync" =
      some ⟨[⟨7, 2, .epoch⟩, ⟨1, 2, .epoch⟩, ⟨2, 5, .epoch⟩], [9]⟩ := rfl
  obtain ⟨⟨qs, hrun, hqs⟩, -⟩ := hreached.drains (f := .all) hq (Nat.le_refl 3)
  have hsize : (Attempt.after .all [⟨7, 2, .epoch⟩, ⟨1, 2, .epoch⟩, ⟨2, 5, .epoch⟩]
      jobsOfAllKinds).store.size? 1 = none := by decide +kernel
  refine ⟨_, hrun, hqs "sync", hsize, fun ms r s' hend => ?_⟩
  exact ((hreached.drains hq (by decide : 3 ≤ 4)).2 _ (fun _ _ h => by rw [h]) ms r s' hend).1

end GeoReplication
