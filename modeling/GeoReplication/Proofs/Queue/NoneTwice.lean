import GeoReplication.Site.Basic
import Mathlib.Data.List.Nodup

/-!
# Proofs/Queue/NoneTwice — a project is in a queue at most once

The projects of a queue are those of its pending jobs and those that run.  Every operation keeps
them distinct, and only `push` makes them more.
-/

namespace GeoReplication

namespace JobQueue

variable {q : JobQueue} {job : Job} {projectId : Int}

/-- The projects that are pending or running. -/
def projects (q : JobQueue) : List Int := q.pending.map (·.projectId) ++ q.running

/-- No project is pending or running twice. -/
def NoneTwice (q : JobQueue) : Prop := q.projects.Nodup

instance (q : JobQueue) : Decidable q.NoneTwice := inferInstanceAs (Decidable q.projects.Nodup)

theorem length_projects (q : JobQueue) : q.projects.length = q.inFlight := by
  simp [projects, inFlight]

theorem isScheduled_iff : q.isScheduled projectId = true ↔ projectId ∈ q.projects := by
  simp only [isScheduled, projects, Bool.or_eq_true, List.contains_iff_mem, List.any_eq_true,
    beq_iff_eq, List.mem_append, List.mem_map]
  exact or_comm

/-! ## Pushing -/

theorem push_of_mem (h : job.projectId ∈ q.projects) : q.push job = (false, q) := by
  rw [push, if_pos (isScheduled_iff.mpr h)]

theorem push_of_notMem (h : job.projectId ∉ q.projects) :
    q.push job = (true, { q with pending := q.pending ++ [job] }) := by
  rw [push, if_neg (by rwa [isScheduled_iff])]

/-- The projects after a job more: its own comes behind those of the other pending jobs. -/
theorem projects_push_perm (h : job.projectId ∉ q.projects) :
    (q.push job).2.projects.Perm (job.projectId :: q.projects) := by
  simp only [push_of_notMem h, projects, List.map_append, List.map_cons, List.map_nil,
    List.append_assoc, List.singleton_append]
  exact List.perm_middle

theorem NoneTwice.push (h : q.NoneTwice) (job : Job) : (q.push job).2.NoneTwice := by
  by_cases hj : job.projectId ∈ q.projects
  · rwa [push_of_mem hj]
  · exact (projects_push_perm hj).nodup_iff.mpr (List.nodup_cons.mpr ⟨hj, h⟩)

theorem inFlight_push_le (q : JobQueue) (job : Job) : (q.push job).2.inFlight ≤ q.inFlight + 1 := by
  by_cases hj : job.projectId ∈ q.projects
  · rw [push_of_mem hj]
    exact Nat.le_succ _
  · have hlen := (projects_push_perm hj).length_eq
    rw [List.length_cons, length_projects, length_projects] at hlen
    exact Nat.le_of_eq hlen

/-! ## Taking and finishing -/

section

variable {jobs : List Job} {running : List Int}

/-- A project that is pending does not run. -/
theorem NoneTwice.notMem_running (h : (⟨job :: jobs, running⟩ : JobQueue).NoneTwice) :
    job.projectId ∉ running := fun hmem =>
  (List.nodup_cons.mp h).1 (List.mem_append_right _ hmem)

theorem NoneTwice.tail (h : (⟨job :: jobs, running⟩ : JobQueue).NoneTwice) :
    (⟨jobs, running⟩ : JobQueue).NoneTwice := (List.nodup_cons.mp h).2

theorem NoneTwice.take_cons (h : (⟨job :: jobs, running⟩ : JobQueue).NoneTwice) :
    (⟨job :: jobs, running⟩ : JobQueue).take =
      (some job, ⟨jobs, running ++ [job.projectId]⟩) := by
  simp only [JobQueue.take, List.contains_iff_mem, if_neg h.notMem_running]

/-- Of a job that was taken and has ended nothing is left. -/
theorem NoneTwice.finish_taken (h : (⟨job :: jobs, running⟩ : JobQueue).NoneTwice) :
    (⟨jobs, running ++ [job.projectId]⟩ : JobQueue).finish job.projectId = ⟨jobs, running⟩ := by
  have hkept : running.filter (· ≠ job.projectId) = running :=
    List.filter_eq_self.mpr fun id hid => decide_eq_true (ne_of_mem_of_not_mem hid h.notMem_running)
  rw [JobQueue.finish, List.filter_append, hkept]
  simp

end

theorem NoneTwice.take (h : q.NoneTwice) : q.take.2.NoneTwice := by
  obtain ⟨pending, running⟩ := q
  cases pending with
  | nil => exact h
  | cons job jobs =>
    have hperm : (jobs.map (·.projectId) ++ (running ++ [job.projectId])).Perm
        (job.projectId :: (jobs.map (·.projectId) ++ running)) := by
      rw [← List.append_assoc]
      exact List.perm_append_singleton _ _
    rw [h.take_cons]
    exact hperm.nodup_iff.mpr h

theorem inFlight_take_le (q : JobQueue) : q.take.2.inFlight ≤ q.inFlight := by
  obtain ⟨pending, running⟩ := q
  cases pending with
  | nil => exact Nat.le_refl _
  | cons job jobs =>
    simp only [JobQueue.take, inFlight, List.length_cons]
    split
    · omega
    · rw [List.length_append, List.length_singleton]
      omega

theorem NoneTwice.finish (h : q.NoneTwice) (projectId : Int) : (q.finish projectId).NoneTwice :=
  h.sublist (List.Sublist.append_left List.filter_sublist _)

theorem inFlight_finish_le (q : JobQueue) (projectId : Int) :
    (q.finish projectId).inFlight ≤ q.inFlight :=
  Nat.add_le_add_left (List.length_filter_le _ _) _

/-! ## Dropping -/

theorem sift_sublist (f : JobFilter) (timeout : Nat) :
    ∀ (elapsed : Nat → Nat) (jobs : List Job), (sift f timeout elapsed jobs).1.Sublist jobs
  | _, [] => .slnil
  | elapsed, j :: js => by
      have ih := sift_sublist f timeout (fun i => elapsed (i + 1)) js
      rw [sift]
      split
      · exact .refl _
      · dsimp only
        split
        · exact ih.cons j
        · exact ih.cons_cons j

theorem NoneTwice.drop (h : q.NoneTwice) (f : JobFilter) (timeout : Nat) (elapsed : Nat → Nat) :
    (q.drop f timeout elapsed).2.NoneTwice :=
  h.sublist (((sift_sublist f timeout elapsed q.pending).map _).append_right _)

theorem inFlight_drop_le (q : JobQueue) (f : JobFilter) (timeout : Nat) (elapsed : Nat → Nat) :
    (q.drop f timeout elapsed).2.inFlight ≤ q.inFlight :=
  Nat.add_le_add_right (sift_sublist f timeout elapsed q.pending).length_le _

end JobQueue

namespace Queues

theorem get?_set (qs : Queues) (name name' : String) (q : JobQueue) :
    (qs.set name q).get? name' = if name' = name then (qs.get? name').map fun _ => q
      else qs.get? name' := by
  induction qs with
  | nil => simp [set, get?]
  | cons entry qs ih =>
    obtain ⟨n, old⟩ := entry
    simp only [set, get?, List.map_cons, List.lookup_cons] at ih ⊢
    by_cases hn : name' = n
    · subst hn
      by_cases hname : name' = name <;> simp [hname]
    · have hbeq : (name' == n) = false := by simpa using hn
      rw [hbeq]
      exact ih

/-- Dropping jobs either leaves a queue alone or sifts it. -/
theorem get?_dropJobs (qs : Queues) (name : String) (metadata : List (String × String))
    (timeout : Nat) (elapsed : Nat → Nat) {name' : String} {q : JobQueue}
    (hq : qs.get? name' = some q) :
    ∃ q', (qs.dropJobs name metadata timeout elapsed).2.get? name' = some q' ∧
      (q' = q ∨ ∃ f, q' = (q.drop f timeout elapsed).2) := by
  rw [dropJobs]
  cases JobFilter.ofMetadata metadata with
  | error e => exact ⟨q, hq, .inl rfl⟩
  | ok f =>
    cases hn : qs.get? name with
    | none => exact ⟨q, hq, .inl rfl⟩
    | some q₀ =>
      simp only [get?_set]
      by_cases hname : name' = name
      · subst hname
        obtain rfl : q₀ = q := Option.some.inj (hn.symm.trans hq)
        exact ⟨(q₀.drop f timeout elapsed).2, by rw [if_pos rfl, hq]; rfl, .inr ⟨f, rfl⟩⟩
      · exact ⟨q, by rw [if_neg hname, hq], .inl rfl⟩

end Queues

end GeoReplication
