import GeoReplication.Proofs.Queue.NoneTwice

/-!
# Proofs/Queue/Dropped — what dropping jobs leaves

    looked at in time, without the asked for  ++  not looked at

Jobs are looked at in order until the time is over, so one number says all: how many were looked at
(`JobQueue.exists_looked`).  The filter is read from metadata key by key; where no key comes twice,
it admits the jobs that match every key that can be asked for (`JobFilter.admits_iff_matches`).
-/

namespace GeoReplication

/-! ## Matching metadata -/

namespace Job

/-- What a job has under a key, if the key can be asked for. -/
def value? (j : Job) (key : String) : Option Int :=
  if key = "project" then some j.projectId else if key = "node" then some j.nodeId else none

/-- Each entry under a key that can be asked for says what the job has there. -/
def Matches (j : Job) (metadata : List (String × String)) : Prop :=
  ∀ entry ∈ metadata, ∀ id ∈ j.value? entry.1, Text.id? entry.2.toList = some id

instance (j : Job) (metadata : List (String × String)) : Decidable (j.Matches metadata) :=
  inferInstanceAs (Decidable (∀ entry ∈ metadata, ∀ id ∈ j.value? entry.1, _))

theorem matches_cons {j : Job} {key value : String} {rest : List (String × String)} :
    j.Matches ((key, value) :: rest) ↔
      (∀ id ∈ j.value? key, Text.id? value.toList = some id) ∧ j.Matches rest :=
  List.forall_mem_cons

end Job

namespace JobFilter

variable {f g : JobFilter} {metadata : List (String × String)} {j : Job}

/-- What a filter asks for under a key. -/
def value? (f : JobFilter) (key : String) : Option Int :=
  if key = "project" then f.projectId else if key = "node" then f.nodeId else none

theorem mem_keys {key : String} : keys.contains key = true ↔ key = "project" ∨ key = "node" := by
  simp [keys]

/-- The filter that asks for one thing more. -/
def ask (f : JobFilter) (key : String) (id : Int) : JobFilter :=
  if key = "project" then { f with projectId := some id } else { f with nodeId := some id }

/-- What is asked for under other keys stays. -/
theorem value?_ask_of_ne {key key' : String} {id : Int} (hkey : keys.contains key = true)
    (hne : key' ≠ key) : (f.ask key id).value? key' = f.value? key' := by
  rcases mem_keys.mp hkey with rfl | rfl
  · rw [value?, value?, if_neg hne, if_neg hne]
    rfl
  · rw [value?, value?, if_neg hne, if_neg hne]
    rfl

theorem admits_ask {key : String} {id : Int} (hkey : keys.contains key = true)
    (hnone : f.value? key = none) (j : Job) :
    (f.ask key id).admits j = true ↔
      f.admits j = true ∧ ∀ value ∈ j.value? key, some id = some value := by
  rcases mem_keys.mp hkey with rfl | rfl
  · have hproject : f.projectId = none := hnone
    simp [ask, admits, hproject, Job.value?, and_comm]
  · have hnode : f.nodeId = none := hnone
    simp [ask, admits, hnode, Job.value?]

/-- **Reading adds what the metadata asks for**, where it asks nothing twice. -/
theorem admits_read (h : read f metadata = .ok g) (hkeys : (metadata.map Prod.fst).Nodup)
    (hfresh : ∀ key ∈ metadata.map Prod.fst, f.value? key = none) (j : Job) :
    g.admits j = true ↔ f.admits j = true ∧ j.Matches metadata := by
  induction metadata generalizing f with
  | nil =>
    cases h
    simp [Job.Matches]
  | cons entry rest ih =>
    obtain ⟨key, value⟩ := entry
    obtain ⟨hkey, hrest⟩ := List.nodup_cons.mp hkeys
    obtain ⟨hnone, hlater⟩ := List.forall_mem_cons.mp hfresh
    rw [read] at h
    rw [Job.matches_cons]
    split at h
    · next hcontains =>
      split at h
      · cases h
      · next id hid =>
        change read (f.ask key id) rest = .ok g at h
        have hfresh' : ∀ key' ∈ rest.map Prod.fst, (f.ask key id).value? key' = none := by
          intro key' hkey'
          rw [value?_ask_of_ne hcontains (ne_of_mem_of_not_mem hkey' hkey)]
          exact hlater key' hkey'
        rw [ih h hrest hfresh', admits_ask hcontains hnone, hid, and_assoc]
    · next hcontains =>
      have hskipped : j.value? key = none := by
        rw [mem_keys, not_or] at hcontains
        rw [Job.value?, if_neg hcontains.1, if_neg hcontains.2]
      rw [ih h hrest hlater, hskipped]
      simp

/-- What cannot be read has a value that is no id under a key that can be asked for. -/
theorem read_error {e : Error} (h : read f metadata = .error e) :
    ∃ key value, (key, value) ∈ metadata ∧ key ∈ keys ∧ Text.id? value.toList = none ∧
      e = .badRequest (key ++ " must be an integer id") := by
  induction metadata generalizing f with
  | nil => cases h
  | cons entry rest ih =>
    obtain ⟨key, value⟩ := entry
    rw [read] at h
    split at h
    · next hcontains =>
      split at h
      · next hid =>
        cases h
        exact ⟨key, value, List.mem_cons_self, List.contains_iff_mem.mp hcontains, hid, rfl⟩
      · obtain ⟨key', value', hmem, hrest⟩ := ih h
        exact ⟨key', value', List.mem_cons_of_mem _ hmem, hrest⟩
    · obtain ⟨key', value', hmem, hrest⟩ := ih h
      exact ⟨key', value', List.mem_cons_of_mem _ hmem, hrest⟩

/-- What asks for nothing has no key that can be asked for. -/
theorem read_none (h : read f metadata = .ok ⟨none, none⟩) :
    f = ⟨none, none⟩ ∧ ∀ key ∈ metadata.map Prod.fst, key ∉ keys := by
  induction metadata generalizing f with
  | nil =>
    cases h
    exact ⟨rfl, List.forall_mem_nil _⟩
  | cons entry rest ih =>
    obtain ⟨key, value⟩ := entry
    rw [read] at h
    split at h
    · split at h
      · cases h
      · have hset := (ih h).1
        split at hset
        · cases congrArg projectId hset
        · cases congrArg nodeId hset
    · next hcontains =>
      obtain ⟨hf, hrest⟩ := ih h
      rw [List.contains_iff_mem] at hcontains
      exact ⟨hf, List.forall_mem_cons.mpr ⟨hcontains, hrest⟩⟩

/-- Why metadata is refused. -/
inductive Refuses (metadata : List (String × String)) : Error → Prop
  | badId {key value : String} : (key, value) ∈ metadata → key ∈ keys →
      Text.id? value.toList = none →
      Refuses metadata (.badRequest (key ++ " must be an integer id"))
  | noKey (text : String) : (∀ key ∈ metadata.map Prod.fst, key ∉ keys) →
      Refuses metadata (.noMetadata text)

/-- Metadata is refused, or the filter is what was read. -/
theorem ofMetadata_cases (metadata : List (String × String)) :
    (∃ e, ofMetadata metadata = .error e ∧ Refuses metadata e) ∨
      ∃ f, ofMetadata metadata = .ok f ∧ read ⟨none, none⟩ metadata = .ok f := by
  rw [ofMetadata]
  cases hread : read ⟨none, none⟩ metadata with
  | error e =>
    obtain ⟨key, value, hmem, hkey, hid, rfl⟩ := read_error hread
    exact .inl ⟨_, rfl, .badId hmem hkey hid⟩
  | ok f =>
    simp only [bind, Except.bind]
    split
    · next hnothing =>
      rw [Bool.and_eq_true_iff, Option.isNone_iff_eq_none, Option.isNone_iff_eq_none] at hnothing
      obtain ⟨projectId, nodeId⟩ := f
      obtain ⟨rfl, rfl⟩ := hnothing
      exact .inl ⟨_, rfl, .noKey _ (read_none hread).2⟩
    · exact .inr ⟨f, rfl, rfl⟩

/-- **What metadata asks for is every key that can be asked for.** -/
theorem admits_iff_matches (h : read ⟨none, none⟩ metadata = .ok f)
    (hkeys : (metadata.map Prod.fst).Nodup) (j : Job) : f.admits j = true ↔ j.Matches metadata := by
  refine (admits_read h hkeys (fun key _ => ?_) j).trans (and_iff_right rfl)
  rw [value?, ite_self, ite_self]

end JobFilter

/-! ## Looking at jobs -/

namespace JobQueue

variable {q : JobQueue}

/-- **One number says how far the jobs were looked at**: those before were looked at in time, and if
some are left, the time was over before the next. -/
theorem exists_looked (f : JobFilter) (timeout : Nat) (elapsed : Nat → Nat) (jobs : List Job) :
    ∃ p ≤ jobs.length,
      sift f timeout elapsed jobs = ((jobs.take p).filter (fun j => !f.admits j) ++ jobs.drop p,
        ((jobs.take p).filter f.admits).length, decide (p = jobs.length)) ∧
      (∀ i < p, elapsed i < timeout) ∧ (p < jobs.length → timeout ≤ elapsed p) := by
  induction jobs generalizing elapsed with
  | nil => exact ⟨0, Nat.le_refl _, rfl, fun _ hi => absurd hi (Nat.not_lt_zero _), nofun⟩
  | cons j js ih =>
    rw [sift]
    split
    · next hover => exact ⟨0, Nat.zero_le _, rfl, fun _ hi => absurd hi (Nat.not_lt_zero _),
        fun _ => hover⟩
    · next hover =>
      obtain ⟨p, hp, hsift, hintime, hlate⟩ := ih fun i => elapsed (i + 1)
      refine ⟨p + 1, Nat.succ_le_succ hp, ?_, fun i hi => ?_, fun hlt => hlate (by simpa using hlt)⟩
      · rw [hsift]
        cases hadmits : f.admits j <;> simp [hadmits]
      · cases i with
        | zero => exact Nat.not_le.mp hover
        | succ i => exact hintime i (Nat.lt_of_succ_lt_succ hi)

/-- A project whose pending job was removed can be pushed. -/
theorem NoneTwice.push_removed (h : q.NoneTwice) {kept : List Job} (hsub : kept ⊆ q.pending)
    {j : Job} (hj : j ∈ q.pending) (hgone : j ∉ kept) {job : Job}
    (hjob : job.projectId = j.projectId) : (({ q with pending := kept }).push job).1 = true := by
  obtain ⟨hpending, -, hdisjoint⟩ := List.nodup_append.mp h
  rw [push_of_notMem]
  intro hmem
  rcases List.mem_append.mp hmem with hkept | hrunning
  · obtain ⟨j', hj', heq⟩ := List.mem_map.mp hkept
    obtain rfl := List.inj_on_of_nodup_map hpending (hsub hj') hj (heq.trans hjob)
    exact hgone hj'
  · exact hdisjoint _ (List.mem_map_of_mem hj) _ hrunning hjob.symm

/-- What dropping jobs did to a queue `q`: the first `p` pending jobs were looked at, and `q'` is
left. -/
structure Relieved (metadata : List (String × String)) (timeout : Nat) (elapsed : Nat → Nat)
    (q : JobQueue) (report : DropReport) (q' : JobQueue) (p : Nat) : Prop where
  looked : p ≤ q.pending.length
  inTime : ∀ i < p, elapsed i < timeout
  late : p < q.pending.length → timeout ≤ elapsed p
  pending : q'.pending =
    ((q.pending.take p).filter fun j => ¬ j.Matches metadata) ++ q.pending.drop p
  running : q'.running = q.running
  completed : report.completed = true ↔ p = q.pending.length
  deleted : report.deletedJobs = ((q.pending.take p).filter fun j => j.Matches metadata).length
  left : report.queueSize = q'.pending.length
  sum : report.deletedJobs + report.queueSize = q.pending.length
  /-- what was removed can be pushed again -/
  again : ∀ j ∈ q.pending.take p, j.Matches metadata →
    ∀ job : Job, job.projectId = j.projectId → (q'.push job).1 = true

theorem NoneTwice.relieved (h : q.NoneTwice) {f : JobFilter} {metadata : List (String × String)}
    (hf : ∀ j, f.admits j = true ↔ j.Matches metadata) (timeout : Nat) (elapsed : Nat → Nat) :
    ∃ p, Relieved metadata timeout elapsed q (q.drop f timeout elapsed).1
      (q.drop f timeout elapsed).2 p := by
  obtain ⟨p, hp, hsift, hintime, hlate⟩ := exists_looked f timeout elapsed q.pending
  have hadmits : f.admits = fun j => decide (j.Matches metadata) := by
    ext j
    rw [Bool.eq_iff_iff, decide_eq_true_iff]
    exact hf j
  simp only [hadmits, ← decide_not] at hsift
  have hsub := sift_sublist f timeout elapsed q.pending
  rw [JobQueue.drop, hsift]
  rw [hsift] at hsub
  refine ⟨p, hp, hintime, hlate, rfl, rfl, decide_eq_true_iff, rfl, rfl, ?_, ?_⟩
  · have hlooked := (q.pending.take p).length_eq_countP_add_countP
      fun j => decide (j.Matches metadata)
    have hall := congrArg List.length (List.take_append_drop p q.pending)
    simp only [List.countP_eq_length_filter, decide_eq_true_iff, List.length_append]
      at hlooked hall ⊢
    omega
  · intro j hj hmatches job hjob
    refine h.push_removed hsub.subset (List.mem_of_mem_take hj) (fun hkept => ?_) hjob
    rcases List.mem_append.mp hkept with hfilter | hdrop
    · exact of_decide_eq_true (List.mem_filter.mp hfilter).2 hmatches
    · have hnodup : q.pending.Nodup := (List.nodup_append.mp h).1.of_map
      exact List.disjoint_take_drop hnodup (Nat.le_refl p) hj hdrop

end JobQueue

namespace Queues

variable {qs : Queues} {name : String} {metadata : List (String × String)} {timeout : Nat}
  {elapsed : Nat → Nat}

/-- Queues that come to be: of some names and empty at first, then used and relieved of jobs. -/
inductive Reached : Queues → Prop
  | empty (names : List String) : Reached (names.map fun name => (name, .empty))
  | use {qs : Queues} (name : String) {q : JobQueue} (c : QueueCall) : Reached qs →
      qs.get? name = some q → Reached (qs.set name (c.run q).2)
  | drop {qs : Queues} (name : String) (metadata : List (String × String)) (timeout : Nat)
      (elapsed : Nat → Nat) : Reached qs → Reached (qs.dropJobs name metadata timeout elapsed).2

theorem noneTwice_set (h : ∀ name q, qs.get? name = some q → q.NoneTwice) {q : JobQueue}
    (hq : q.NoneTwice) (name name' : String) (q' : JobQueue)
    (hq' : (qs.set name q).get? name' = some q') : q'.NoneTwice := by
  rw [get?_set] at hq'
  split at hq'
  · obtain ⟨-, -, rfl⟩ := Option.map_eq_some_iff.mp hq'
    exact hq
  · exact h name' q' hq'

/-- In no queue that comes to be is a project twice. -/
theorem Reached.noneTwice (h : Reached qs) (name : String) (q : JobQueue)
    (hq : qs.get? name = some q) : q.NoneTwice := by
  induction h generalizing name q with
  | empty names =>
    induction names with
    | nil => cases hq
    | cons n names ih =>
      rw [List.map_cons, get?, List.lookup_cons] at hq
      split at hq
      · cases hq
        exact List.nodup_nil
      · exact ih hq
  | @use qs used q₀ c _ hq₀ ih =>
    have hbefore := ih used q₀ hq₀
    refine noneTwice_set ih ?_ used name q hq
    cases c with
    | inFlight => exact hbefore
    | isScheduled projectId => exact hbefore
    | push job => exact hbefore.push job
    | take => exact hbefore.take
    | finish projectId => exact hbefore.finish projectId
  | drop dropped metadata timeout elapsed _ ih =>
    rw [dropJobs] at hq
    split at hq
    · exact ih name q hq
    · split at hq
      · exact ih name q hq
      · next q₀ hq₀ =>
        exact noneTwice_set ih ((ih dropped q₀ hq₀).drop _ timeout elapsed) dropped name q hq

/-- **Dropping jobs removes what was asked for and nothing else.**  The jobs of one queue are looked
at in order until the time is over, and those that match every key that can be asked for are
removed; no job is lost or moved besides.  What is refused changes no queue. -/
theorem Reached.drops_just (h : Reached qs) (hkeys : (metadata.map Prod.fst).Nodup) (name : String)
    (timeout : Nat) (elapsed : Nat → Nat) :
    (∀ report qs', qs.dropJobs name metadata timeout elapsed = (.ok report, qs') →
      ∃ q q' p, qs.get? name = some q ∧ qs'.get? name = some q' ∧
        (∀ name' ≠ name, qs'.get? name' = qs.get? name') ∧
        JobQueue.Relieved metadata timeout elapsed q report q' p) ∧
    ∀ e qs', qs.dropJobs name metadata timeout elapsed = (.error e, qs') → qs' = qs ∧
      (JobFilter.Refuses metadata e ∨ e = .invalidQueue name ∧ qs.get? name = none) := by
  rw [dropJobs]
  rcases JobFilter.ofMetadata_cases metadata with ⟨e, hread, hrefuses⟩ | ⟨f, hread, hf⟩
  · rw [hread]
    refine ⟨fun _ _ h => (by cases h), fun e' qs' h => ?_⟩
    cases h
    exact ⟨rfl, .inl hrefuses⟩
  rw [hread]
  cases hq : qs.get? name with
  | none =>
    refine ⟨fun _ _ h => (by cases h), fun e qs' h => ?_⟩
    cases h
    exact ⟨rfl, .inr ⟨rfl, rfl⟩⟩
  | some q =>
    refine ⟨fun report qs' hdone => ?_, fun _ _ h => (by cases h)⟩
    cases hdone
    obtain ⟨p, hrelieved⟩ := (h.noneTwice name q hq).relieved
      (fun j => JobFilter.admits_iff_matches hf hkeys j) timeout elapsed
    refine ⟨q, (q.drop f timeout elapsed).2, p, rfl, ?_, fun name' hname' => ?_, hrelieved⟩
    · rw [get?_set, if_pos rfl, hq]
      rfl
    · rw [get?_set, if_neg hname']

/-- Where the time is over after two jobs, the third stays although it was asked for; the project of
the first, which was removed, can be pushed again. -/
theorem drops_just_late :
    let qs : Queues := [("sync", ⟨[⟨1, 10, .epoch⟩, ⟨2, 11, .epoch⟩, ⟨3, 10, .epoch⟩], []⟩)]
    let q' : JobQueue := ⟨[⟨2, 11, .epoch⟩, ⟨3, 10, .epoch⟩], []⟩
    let metadata := [("node", "10"), ("ignored", "x")]
    qs.Reached ∧ (metadata.map Prod.fst).Nodup ∧
      qs.dropJobs "sync" metadata 2 id = (.ok ⟨false, 1, 2⟩, [("sync", q')]) ∧
      (∃ q, qs.get? "sync" = some q ∧ JobQueue.Relieved metadata 2 id q ⟨false, 1, 2⟩ q' 2) ∧
      (q'.push ⟨1, 12, .epoch⟩).1 = true := by
  intro qs q' metadata
  have hreached : qs.Reached := by
    have hfirst := (Reached.empty ["sync"]).use "sync" (.push ⟨1, 10, .epoch⟩) rfl
    have hsecond := hfirst.use "sync" (.push ⟨2, 11, .epoch⟩) rfl
    exact hsecond.use "sync" (.push ⟨3, 10, .epoch⟩) rfl
  have hkeys : (metadata.map Prod.fst).Nodup := by decide
  have hrun : qs.dropJobs "sync" metadata 2 id = (.ok ⟨false, 1, 2⟩, [("sync", q')]) := by rfl
  obtain ⟨q, _, p, hq, hq', -, hrelieved⟩ :=
    (hreached.drops_just hkeys "sync" 2 id).1 _ _ hrun
  cases hq'
  cases hq
  obtain rfl : p = 2 := by
    have hlooked : p ≤ 3 := hrelieved.looked
    have hsome : p ≠ 3 := fun hall => absurd (hrelieved.completed.mpr hall) (by decide)
    have hlate : p < 3 → 2 ≤ p := hrelieved.late
    omega
  exact ⟨hreached, hkeys, hrun, ⟨_, rfl, hrelieved⟩,
    hrelieved.again ⟨1, 10, .epoch⟩ (by decide) (by decide) _ rfl⟩

end Queues

end GeoReplication
