import GeoReplication.Proofs.Program.Looks
import GeoReplication.Proofs.Store.Counts
import GeoReplication.StatusReport

/-!
# Proofs/Status/AddsUp — the numbers of a status belong together

A status is put together from answers to separate questions.  As long as nothing is written in
between and every question is answered, its numbers are those of one store (`achieves_compute`), and
there what is synced, what has failed and what is left make up what the node sees
(`compute_adds_up`).  The health check is whatever it is, as long as it only looks; the check of the
installation itself does (`looks_localTo`).
-/

namespace GeoReplication

open Program

namespace HealthCheck

/-- The check only looks. -/
structure Looks (h : HealthCheck) : Prop where
  process (checks : List String) : (h.process checks).Looks
  lag : h.lag.Looks

end HealthCheck

/-! ## The check of the installation itself -/

namespace Health

theorem looks_logFailures (n : Node) : (logFailures n).Looks := by
  refine (looks_call rfl).attempt.bind fun cursor => (looks_call rfl).attempt.bind fun last => ?_
  split
  · dsimp only
    split <;> exact looks_pure _
  all_goals exact looks_pure _

theorem looks_failures (c : Config) (nodeUrl : String) : (failures c nodeUrl).Looks := by
  refine (looks_call rfl).attempt.bind fun ping => ?_
  split
  · exact looks_pure _
  · refine (looks_call rfl).attempt.bind fun node => ?_
    split
    · exact looks_pure _
    · exact looks_pure _
    · exact (looks_logFailures _).bind fun _ => looks_pure _

theorem looks_process (c : Config) (nodeUrl : String) :
    ∀ checks : List String, (process c nodeUrl checks).Looks
  | [] => looks_pure _
  | check :: checks => by
      rw [process]
      split
      · exact (looks_failures c nodeUrl).bind fun _ =>
          (looks_process c nodeUrl checks).bind fun _ => looks_pure _
      · exact looks_fail _

theorem looks_lag : lag.Looks := by
  refine (looks_call rfl).bind fun beat => ?_
  split
  · exact looks_pure _
  · exact looks_clock.bind fun _ => looks_pure _

end Health

theorem HealthCheck.looks_localTo (c : Config) (nodeUrl : String) : (localTo c nodeUrl).Looks where
  process checks := (Health.looks_process c nodeUrl checks).bind fun _ => looks_pure _
  lag := Health.looks_lag

/-! ## One store behind all numbers -/

/-- An operation of the store is answered. -/
def Site.responds (s : Site) : Effect → Bool
  | .store c => (s.call c).1.isOk
  | _ => true

/-- No operation of the store fails. -/
def Site.Responds (s : Site) (e : Effect) : Prop := s.responds e = true

instance (s : Site) (e : Effect) : Decidable (s.Responds e) :=
  inferInstanceAs (Decidable (s.responds e = true))

/-- The counts of files of a class. -/
def NodeStatus.files (st : NodeStatus) : FileClass → CopyCounts
  | .lfsObjects => st.lfsObjects
  | .attachments => st.attachments

/-- The counts of files as they are reported. -/
def FileCounts.copies (n : FileCounts) : CopyCounts := .of n.total n.synced n.failed

namespace StatusReport

variable {α : Type} {P : Site → Effect → Prop} {s : Site} {store : Store} {scope : Scope}
  {h : HealthCheck} {n : Node}

theorem achieves_health (hh : h.Looks) (hs : s.store = store) :
    Achieves P (health h) s fun _ s' => s'.store = store :=
  ((hh.process _).achieves_attempt (I := fun s' => s' = store) hs).bind fun r s' hs' => by
    cases r <;> exact .pure hs'

theorem achieves_orDefault {t : Program α} (ht : t.Looks) (d : α) (hs : s.store = store) :
    Achieves P (orDefault d t) s fun _ s' => s'.store = store :=
  (ht.achieves_attempt (I := fun s' => s' = store) hs).bind fun r s' hs' => by
    cases r <;> exact .pure hs'

/-- A question that is answered, from the store as it is. -/
theorem achieves_answer {c : Call} (hc : c.writes = []) (d : c.Reply) (hs : s.store = store) :
    Achieves Site.Responds (orDefault d (call c)) s fun r s' =>
      (c.run s.now store).1 = .ok r ∧ s'.store = store := by
  intro hwell
  have hanswer : s.Responds (.store c) := (throughout_bind.mp hwell).1.1
  obtain ⟨r, hr⟩ := Site.reply_of_isOk hanswer
  have hrun : (call c).attempt.run s = (.ok (.ok r), (s.call c).2) := by
    rw [run_attempt, run_call]
    rcases hcall : s.call c with ⟨reply, s'⟩
    rw [hcall] at hr
    obtain rfl : reply = .ok r := hr
    rfl
  refine ⟨r, (s.call c).2, run_bind_ok hrun _, ?_, (s.store_call_of_writes_nil hc).trans hs⟩
  rw [← hs, Site.run_of_call_ok hr]

theorem achieves_repositories (hs : s.store = store) :
    Achieves Site.Responds (repositories scope) s fun r s' =>
      r = .of (store.projectCount scope) (store.registryCount scope .repository .synced)
        (store.registryCount scope .repository .syncFailed) ∧ s'.store = store := by
  refine (achieves_answer rfl 0 hs).bind ?_
  rintro total s₁ ⟨htotal, h₁⟩
  refine (achieves_answer rfl 0 h₁).bind ?_
  rintro synced s₂ ⟨hsynced, h₂⟩
  refine (achieves_answer rfl 0 h₂).bind ?_
  rintro failed s₃ ⟨hfailed, h₃⟩
  obtain rfl := Except.ok.inj htotal
  obtain rfl := Except.ok.inj hsynced
  obtain rfl := Except.ok.inj hfailed
  exact .pure ⟨rfl, h₃⟩

theorem achieves_files (c : FileClass) (hs : s.store = store) :
    Achieves Site.Responds (files scope c) s fun r s' =>
      r = (store.fileCounts scope c).copies ∧ s'.store = store := by
  refine (achieves_answer (c := .countFiles scope c) rfl ⟨0, 0, 0⟩ hs).bind ?_
  rintro counts s₁ ⟨hcounts, h₁⟩
  obtain rfl := Except.ok.inj hcounts
  exact .pure ⟨rfl, h₁⟩

theorem achieves_cursor (st : NodeStatus) (hs : s.store = store) :
    Achieves P (cursor n st) s fun st' s' => st'.repositories = st.repositories ∧
      (∀ c, st'.files c = st.files c) ∧ s'.store = store := by
  refine (achieves_orDefault (looks_call (c := .getCursor n.id) rfl) none hs).bind
    fun cursor s₁ h₁ => ?_
  cases cursor with
  | none => exact .pure ⟨rfl, fun _ => rfl, h₁⟩
  | some cursor =>
    refine (achieves_orDefault (looks_call (c := .getEvent cursor.eventId) rfl) none h₁).bind
      fun event s₂ h₂ => ?_
    exact .pure ⟨rfl, fun c => by cases c <;> rfl, h₂⟩

/-- The health of the node, if it is one that has any. -/
def checkup (h : HealthCheck) (n : Node) : Program (Bool × String) :=
  if n.isSecondary then health h else pure (true, "")

/-- How far the node trails the primary, if it is one that can. -/
def delay (h : HealthCheck) (n : Node) : Program (Option Int) :=
  if n.isSecondary then orDefault none h.lag else pure none

/-- The report, once health and lag are known. -/
def reportOn (f : Features) (n : Node) (health : Bool × String) (lag : Option Int) :
    Program NodeStatus := do
  let repositories ← repositories (.of n f.namespaceRestrictions)
  let lfsObjects ← files (.of n f.namespaceRestrictions) .lfsObjects
  let attachments ← files (.of n f.namespaceRestrictions) .attachments
  let last ← orDefault none (Program.call .lastEvent)
  let st : NodeStatus := ⟨health.1, health.2, lag, repositories, lfsObjects, attachments,
    last.map (·.id), last.map (·.createdAt), none, none⟩
  if n.isSecondary then cursor n st else pure st

theorem compute_eq (h : HealthCheck) (f : Features) (n : Node) :
    compute h f n =
      (checkup h n >>= fun health => delay h n >>= fun lag => reportOn f n health lag) := by
  rw [compute, checkup, delay]
  cases hsecondary : n.isSecondary <;> simp only [reportOn, hsecondary] <;> rfl

theorem achieves_checkup (hh : h.Looks) (hs : s.store = store) :
    Achieves P (checkup h n) s fun _ s' => s'.store = store := by
  rw [checkup]
  split
  · exact achieves_health hh hs
  · exact .pure hs

theorem achieves_delay (hh : h.Looks) (hs : s.store = store) :
    Achieves P (delay h n) s fun _ s' => s'.store = store := by
  rw [delay]
  split
  · exact achieves_orDefault hh.lag none hs
  · exact .pure hs

/-- **A status is about one store**, if no operation fails and the health check only looks. -/
theorem achieves_compute (hh : h.Looks) (f : Features) (n : Node) (s : Site) :
    Achieves Site.Responds (compute h f n) s fun st s' =>
      st.repositories = .of (s.store.projectCount (.of n f.namespaceRestrictions))
        (s.store.registryCount (.of n f.namespaceRestrictions) .repository .synced)
        (s.store.registryCount (.of n f.namespaceRestrictions) .repository .syncFailed) ∧
      (∀ c, st.files c = (s.store.fileCounts (.of n f.namespaceRestrictions) c).copies) ∧
      s'.store = s.store := by
  rw [compute_eq]
  refine (achieves_checkup hh rfl).bind fun health s₁ h₁ => ?_
  refine (achieves_delay hh h₁).bind fun lag s₂ h₂ => ?_
  refine (achieves_repositories h₂).bind ?_
  rintro _ s₃ ⟨rfl, h₃⟩
  refine (achieves_files .lfsObjects h₃).bind ?_
  rintro _ s₄ ⟨rfl, h₄⟩
  refine (achieves_files .attachments h₄).bind ?_
  rintro _ s₅ ⟨rfl, h₅⟩
  refine (achieves_orDefault (looks_call (c := .lastEvent) rfl) none h₅).bind
    fun last s₆ h₆ => ?_
  split
  · refine (achieves_cursor _ h₆).imp ?_
    rintro st s' ⟨hrepositories, hfiles, hs'⟩
    exact ⟨hrepositories, fun c => (hfiles c).trans (by cases c <;> rfl), hs'⟩
  · exact .pure ⟨rfl, fun c => by cases c <;> rfl, h₆⟩

/-! ## What the numbers come to -/

/-- **The numbers of a status add up.**  For a node with or without restrictions, at any site whose
store operations have led to: synced and failed repositories are no more than all, and those left
are the projects the node sees and has no registry of, or one whose repository was never attempted.
Synced and failed files of a class are no more than all of it, and no file counts as both. -/
theorem compute_adds_up {s : Site} (hs : s.store.Reached) (hh : h.Looks) (f : Features)
    (n : Node) :
    Achieves Site.Responds (compute h f n) s fun st s' =>
      s'.store = s.store ∧
      st.repositories.synced + st.repositories.failed ≤ st.repositories.total ∧
      st.repositories.total - (st.repositories.synced + st.repositories.failed) =
        (s.store.unsettled (.of n f.namespaceRestrictions)).length ∧
      ∀ c, (st.files c).synced + (st.files c).failed ≤ (st.files c).total ∧
        ∃ synced failed : List Int,
          (synced ++ failed).Nodup ∧
          (synced ++ failed) ⊆ s.store.visibleFiles (.of n f.namespaceRestrictions) c ∧
          (∀ id ∈ synced, s.store.hasCopy n.id c id = true) ∧
          (∀ id ∈ failed, s.store.hasFailure n.id c id = true) ∧
          (st.files c).total = (s.store.visibleFiles (.of n f.namespaceRestrictions) c).length ∧
          (st.files c).synced = synced.length ∧ (st.files c).failed = failed.length := by
  refine (achieves_compute hh f n s).imp ?_
  rintro st s' ⟨hrepositories, hfiles, hs'⟩
  have hprojects := hs.sound.projectCount_eq (.of n f.namespaceRestrictions)
  refine ⟨hs', ?_, ?_, fun c => ⟨?_, s.store.syncedFiles _ c, s.store.failedFiles _ c,
    s.store.nodup_countedFiles _ c, s.store.countedFiles_subset _ c, ?_, ?_, ?_⟩⟩
  · rw [hrepositories]
    dsimp only [CopyCounts.of]
    omega
  · rw [hrepositories]
    dsimp only [CopyCounts.of]
    omega
  · rw [hfiles]
    exact s.store.fileCounts_le _ c
  · exact fun id hid => (List.mem_filter.mp hid).2
  · exact fun id hid => (Bool.and_eq_true_iff.mp (List.mem_filter.mp hid).2).1
  · rw [hfiles]
    exact ⟨rfl, rfl, rfl⟩

/-- A node restricted to a group: of four projects in it and below, one is synced, one has failed,
one only has a request and one has nothing; a fifth lies elsewhere.  An upload was copied under one
kind and failed under another. -/
def mixedStore : Store :=
  let calls : List Call := [.createNamespace "group" none, .createNamespace "below" (some 1),
    .createNamespace "elsewhere" none,
    .createNode ⟨⟨"http", "secondary", 80, ""⟩, .secondary, true, [1], 1, 1⟩,
    .createProject ⟨1, "a", "group/a", "default", false, none⟩,
    .createProject ⟨2, "b", "group/below/b", "default", false, none⟩,
    .createProject ⟨1, "c", "group/c", "default", false, none⟩,
    .createProject ⟨2, "d", "group/below/d", "default", false, none⟩,
    .createProject ⟨3, "e", "elsewhere/e", "default", false, none⟩,
    .recordSyncSuccess 1 1 .repository .epoch, .recordSyncFailure 1 2 .repository "refused",
    .requestResync 1 3 .repository, .recordSyncSuccess 1 5 .repository .epoch,
    .createUpload ⟨.project, 2, "AvatarUploader", "a.png", 7⟩,
    .recordFileSynced ⟨1, .avatar, 1, 7, none, .epoch⟩, .recordFileFailure 1 .file 1 "missing"]
  calls.foldl (fun s c => (c.run .epoch s).2) .empty

/-- The node, as it is registered there. -/
def groupNode : Node :=
  ⟨1, ⟨"http", "secondary", 80, ""⟩, .secondary, true, [1], 1, 1, .epoch, .epoch⟩

theorem compute_adds_up_mixed : ∃ st s',
    (compute (.localTo .standard "http://secondary/") .all groupNode).run
      (.start .epoch mixedStore []) = (.ok st, s') ∧
    s'.store = mixedStore ∧
    st.repositories.total - (st.repositories.synced + st.repositories.failed) = 2 ∧
    (st.files .attachments).synced + (st.files .attachments).failed ≤
      (st.files .attachments).total := by
  have hreached : mixedStore.Reached := .calls .epoch _ .empty
  obtain ⟨st, s', hrun, hstore, -, hleft, hfiles⟩ :=
    compute_adds_up (s := .start .epoch mixedStore []) hreached
      (HealthCheck.looks_localTo .standard "http://secondary/") .all groupNode (by decide +kernel)
  have htwo : (mixedStore.unsettled (.of groupNode true)).length = 2 := by decide +kernel
  exact ⟨st, s', hrun, hstore, hleft.trans htwo, (hfiles .attachments).1⟩

example : ((compute (.localTo .standard "http://secondary/") .all groupNode).run
    (.start .epoch mixedStore [])).1.toOption.map (fun st =>
      (st.repositories.total, st.repositories.synced, st.repositories.failed,
        st.attachments.synced, st.attachments.failed)) =
    some (4, 1, 1, 1, 0) := by decide +kernel

end StatusReport

end GeoReplication
