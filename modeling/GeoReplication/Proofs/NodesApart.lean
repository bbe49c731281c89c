import GeoReplication.Proofs.EventLog.Trials
import GeoReplication.Proofs.Replication.Recorded
import GeoReplication.Proofs.Replication.WithoutWikis
import GeoReplication.Proofs.Status.OneStore
import GeoReplication.Proofs.Status.Unrestricted
import GeoReplication.Proofs.Store.Apart
import GeoReplication.Proofs.Tick.Outcome

/-!
# Proofs/NodesApart — work for one node does not disturb another

An effect that spares a node leaves it alone (`Effect.Spares.perform`), and so does a program all
whose effects do.  Runs over the event log and ticks are such programs for every node but their own
(`every_runOnce_spares`, `every_tick_spares`); an attempt is one once it has looked up its node
(`undisturbed_attempt`).  What a store shows in the status of a node is no more than what is left
alone (`Store.Undisturbed.shows`), so the status stays what it is (`nodes_apart`).
-/

namespace GeoReplication

open Program GeoReplication.Time

variable {node : Int} {s s' : Site}

/-! ## Effects and programs that spare a node -/

/-- The effect is no operation, or one that spares the node. -/
def Effect.Spares (node : Int) : Effect → Prop
  | .store c => c.Spares node
  | _ => True

/-- No mirror makes the node ask for a copy. -/
def Site.Unasked (node : Int) (s : Site) : Prop := ∀ r ∈ s.rules, r.resyncNode ≠ some node

instance (node : Int) (s : Site) : Decidable (s.Unasked node) :=
  inferInstanceAs (Decidable (∀ r ∈ s.rules, r.resyncNode ≠ some node))

namespace Site

/-- The node has been left alone, and still is not made to ask for a copy. -/
structure Apart (node : Int) (s s' : Site) : Prop where
  store : s.store.Undisturbed node s'.store
  rules : s'.Unasked node

theorem Apart.refl (h : s.Unasked node) : Apart node s s := ⟨refl_of _ _, h⟩

theorem Apart.trans {s'' : Site} (h : Apart node s s') (h' : Apart node s' s'') :
    Apart node s s'' := ⟨trans_of _ h.store h'.store, h'.rules⟩

theorem Unasked.call (h : s.Unasked node) {c : Call} (hc : c.Spares node) :
    Apart node s (s.call c).2 := by
  refine ⟨?_, fun r hr => h r (by rwa [rules_call] at hr)⟩
  rcases s.store_call c with hsame | hrun
  · rw [hsame]
    exact refl_of _ _
  · rw [hrun]
    exact hc.run _ _

theorem Unasked.meanwhile (h : s.Unasked node) {c : Copying}
    (hc : c.rule.resyncNode ≠ some node) : Apart node s (s.meanwhile c).2 := by
  obtain ⟨touched, htouched, hdone⟩ := s.meanwhile_snd c
  have hfirst : Apart node s touched := by
    rcases htouched with rfl | rfl
    · exact .refl h
    · exact h.call (.inr (.inr (.inr (.inr ⟨_, _, _, rfl⟩))))
  rcases hdone with hdone | ⟨other, hother, hdone⟩
  · rwa [hdone]
  · rw [hdone]
    refine hfirst.trans (hfirst.rules.call (.inl ⟨other, ?_, rfl⟩))
    rintro rfl
    exact hc hother

/-- A copy for whatever node. -/
theorem Unasked.fetch (h : s.Unasked node) (primaryUrl : String) (p : Project) (part : Part) :
    Apart node s (s.perform (.fetch primaryUrl p part)).2 := by
  obtain ⟨hrule, hrules⟩ := choose_keeps (P := fun r => r.resyncNode ≠ some node) (by rintro ⟨⟩)
    (fun _ _ hr => hr) p.id part h
  change Apart node s
    ((s.beginFetch primaryUrl p part).2.endFetch (s.beginFetch primaryUrl p part).1).2
  rw [endFetch_snd]
  have hbegun : ((s.beginFetch primaryUrl p part).2.note
    (s.beginFetch primaryUrl p part).1 false).Unasked node := hrules
  exact ⟨(hbegun.meanwhile hrule).store, (hbegun.meanwhile hrule).rules⟩

end Site

/-- **Effects that spare a node** leave it alone. -/
theorem Effect.Spares.perform {e : Effect} (he : e.Spares node) (h : s.Unasked node) :
    Site.Apart node s (s.perform e).2 := by
  cases e with
  | store c => exact h.call he
  | fetch primaryUrl p part => exact h.fetch primaryUrl p part
  | lease c =>
    change Site.Apart node s (s.askLease c).2
    refine ⟨?_, fun r hr => h r (by rwa [Site.rules_askLease] at hr)⟩
    rw [Site.store_askLease]
    exact refl_of _ _
  | _ => exact ⟨refl_of _ _, h⟩

/-- **Programs that spare a node** leave it alone. -/
theorem Program.Every.apart {α : Type} {p : α → Prop} {t : Program α}
    (h : t.Every (Effect.Spares node) p) (hs : s.Unasked node) : Site.Apart node s (t.run s).2 :=
  h.run_keeps (I := Site.Apart node s) (fun _ _ he hs => hs.trans (he.perform hs.rules)) (.refl hs)

/-! ## Runs over the event log -/

namespace EventLog

variable {n : Node}

/-- Whatever an operation for a node writes, it spares every other. -/
theorem spares_of_isFor (h : node ≠ n.id) {c : Call} (hc : c.IsFor n.id) :
    Effect.Spares node (.store c) := .inl ⟨n.id, h, hc⟩

theorem every_apply_spares (h : node ≠ n.id) (e : Event) :
    (apply n e).Every (Effect.Spares node) fun _ => True := by
  by_cases htype : e.eventType = .deleted
  · rw [apply_deleted htype]
    exact Every.bind (p := fun _ => True) (.call (spares_of_isFor h rfl)) fun _ _ => trivial
  · rw [apply_of_ne htype]
    refine Every.bind (p := fun _ => True) (.call (.inr (.inr (.inl rfl)))) fun p _ => ?_
    split
    · trivial
    · exact .call (spares_of_isFor h rfl)

theorem every_applyAll_spares (h : node ≠ n.id) :
    ∀ events : List Event, (applyAll n events).Every (Effect.Spares node) fun _ => True
  | [] => trivial
  | e :: events => by
      have hrest : (applyAll n events >>= fun es => pure (e :: es)).Every (Effect.Spares node)
          fun _ => True := (every_applyAll_spares h events).bind fun _ _ => trivial
      refine ((every_apply_spares h e).attempt.imp fun _ _ => trivial).bind
        (p := fun _ => True) fun r _ => ?_
      rcases r with e | ⟨⟩
      · cases e with
        | notFound => exact hrest
        | _ => trivial
      · exact hrest

theorem every_runOnce_spares (h : node ≠ n.id) (batchSize : Nat) :
    (runOnce n batchSize).Every (Effect.Spares node) fun _ => True := by
  refine Every.bind (p := fun _ => True) (.call (.inr (.inr (.inl rfl)))) fun cursor _ => ?_
  split
  · trivial
  refine Every.bind (p := fun _ => True) (.call (.inr (.inr (.inl rfl)))) fun events _ => ?_
  refine (every_applyAll_spares h events).bind fun consumed _ => ?_
  split
  · trivial
  · exact Every.bind (p := fun _ => True) (.call (spares_of_isFor h rfl)) fun _ _ => trivial

end EventLog

/-! ## Attempts -/

namespace Attempt

variable {n : Node}

theorem every_part_spares (h : node ≠ n.id) (p : Project) (primaryUrl : String) (part : Part) :
    (Attempt.part n p primaryUrl part).Every (Effect.Spares node) fun _ => True := by
  refine Every.bind (p := fun _ => True) ⟨trivial, fun _ => trivial⟩ fun started _ => ?_
  have hfetch : (Program.fetch primaryUrl p part).Every (Effect.Spares node) fun _ => True :=
    ⟨trivial, fun r => .ofExcept r⟩
  refine hfetch.attempt.bind fun r _ => ?_
  cases r with
  | ok _ =>
    exact Every.bind (p := fun _ => True) (.call (.inl ⟨n.id, h, rfl⟩)) fun _ _ => trivial
  | error e =>
    exact Every.bind (p := fun _ => True) (.call (.inl ⟨n.id, h, rfl⟩)) fun _ _ => trivial

theorem every_copies_spares (h : node ≠ n.id) (f : Features) (p : Project) (primaryUrl : String) :
    (copies f n p primaryUrl).Every (Effect.Spares node) fun _ => True := by
  refine (every_part_spares h p primaryUrl .repository).bind fun repository _ => ?_
  have hlast (wiki : Option SyncState) : (do
      if repository = SyncState.synced then Program.call (.expireRepositoryCache p.id)
      return (⟨repository, wiki⟩ : Outcome)).Every (Effect.Spares node) fun _ => True := by
    split
    · refine Every.bind (p := fun _ => True) (.call ?_) fun _ _ => trivial
      exact .inr (.inr (.inr (.inl ⟨p.id, rfl⟩)))
    · trivial
  dsimp only
  by_cases hwiki : (p.wikiEnabled && f.wikiSync) = true
  · rw [if_pos hwiki, map_eq_pure_bind, Program.bind_assoc]
    exact (every_part_spares h p primaryUrl .wiki).bind fun wiki _ => hlast (some wiki)
  · rw [if_neg hwiki]
    exact hlast none

/-- The rest of an attempt, once its node is known. -/
def copy (f : Features) (projectId : Int) (n : Node) : Program Outcome := do
  let p ← Program.orElse .notFound (← Program.call (.getProject projectId))
  let primary ← Program.orElse .noPrimary (← Program.call .getPrimaryNode)
  copies f n p primary.url

theorem run_eq (f : Features) (nodeId projectId : Int) :
    run f nodeId projectId =
      (Program.call (.getNode nodeId) >>= fun o =>
        Program.orElse .notFound o >>= copy f projectId) :=
  rfl

theorem every_copy_spares (h : node ≠ n.id) (f : Features) (projectId : Int) :
    (copy f projectId n).Every (Effect.Spares node) fun _ => True := by
  refine Every.bind (p := fun _ => True) (.call (.inr (.inr (.inl rfl)))) fun o _ => ?_
  refine (every_orElse _ o).bind fun p _ => ?_
  refine Every.bind (p := fun _ => True) (.call (.inr (.inr (.inl rfl)))) fun o _ => ?_
  exact (every_orElse _ o).bind fun primary _ => every_copies_spares h f p primary.url

/-- **An attempt for another node** leaves a node alone: the node it looks up has the number it
asked for. -/
theorem undisturbed_attempt {nodeId : Int} (h : node ≠ nodeId) (f : Features) (projectId : Int)
    (hs : s.Unasked node) : Site.Apart node s ((run f nodeId projectId).run s).2 := by
  have hlook : Site.Apart node s (s.call (.getNode nodeId)).2 :=
    hs.call (c := .getNode nodeId) (.inr (.inr (.inl rfl)))
  rw [run_eq, run_bind, run_call]
  rcases hcall : s.call (.getNode nodeId) with ⟨e | o, s₁⟩
  · rwa [hcall] at hlook
  · have hnode := Site.run_of_call_ok (congrArg Prod.fst hcall)
    rw [hcall] at hlook
    rcases o with _ | n
    · exact hlook
    · obtain ⟨row, -, hholds⟩ := Store.readNode_eq_some_iff.mp
        (Call.fst_lift_read.mp (congrArg Prod.fst hnode))
      exact hlook.trans ((every_copy_spares (hholds.id ▸ h) f projectId).apart hlook.rules)

end Attempt

/-! ## Ticks -/

/-- **A tick of another node** leaves a node alone. -/
theorem Scheduler.every_tick_spares {sched : Scheduler} (hl : sched.HasLease) (n : Node)
    (r : Rotation) (limit : Nat) :
    (sched.tick n r limit).Every (Effect.Spares node) fun _ => True :=
  every_tick (.inr (.inr (.inl rfl)))
    { lookUp := fun _ _ _ => .inr (.inr (.inl rfl))
      clock := trivial
      uptime := trivial
      inFlight := trivial
      isScheduled := fun _ => trivial
      push := fun _ => trivial
      lease := hl.does (fun _ hc => .inr (.inl hc)) fun _ => trivial } r limit

/-! ## Nodes apart -/

/-- Work that is carried out for one node. -/
inductive Work where
  /-- a single operation -/
  | operation (c : Call)
  /-- a run over the event log -/
  | events (n : Node) (batchSize : Nat)
  /-- an attempt to copy a project -/
  | attempt (f : Features) (nodeId projectId : Int)
  /-- a tick of a scheduler -/
  | tick (sched : Scheduler) (n : Node) (r : Rotation) (limit : Nat)

namespace Work

/-- The work is for the node; a tick has a lease of either kind. -/
def IsFor (node : Int) : Work → Prop
  | operation c => c.IsFor node
  | events n _ => n.id = node
  | attempt _ nodeId _ => nodeId = node
  | tick sched n _ _ => n.id = node ∧ sched.HasLease

/-- The site after the work, however it ended. -/
def after (s : Site) : Work → Site
  | operation c => (s.call c).2
  | events n batchSize => ((EventLog.runOnce n batchSize).run s).2
  | attempt f nodeId projectId => ((Attempt.run f nodeId projectId).run s).2
  | tick sched n r limit => ((sched.tick n r limit).run s).2

theorem IsFor.apart {other : Int} {w : Work} (hw : w.IsFor other) (h : node ≠ other)
    (hs : s.Unasked node) : Site.Apart node s (w.after s) := by
  cases w with
  | operation c => exact hs.call (.inl ⟨other, h, hw⟩)
  | events n batchSize =>
    obtain rfl : n.id = other := hw
    exact (EventLog.every_runOnce_spares h batchSize).apart hs
  | attempt f nodeId projectId =>
    obtain rfl : nodeId = other := hw
    exact Attempt.undisturbed_attempt h f projectId hs
  | tick sched n r limit => exact (Scheduler.every_tick_spares hw.2 n r limit).apart hs

end Work

/-- What a node is left alone in is all that a store shows of it. -/
theorem Store.Undisturbed.shows {store store' : Store} {n : Node}
    (h : store.Undisturbed n.id store') {now : Instant} {f : Features} {st st' : NodeStatus}
    (hst : store.Shows now f n st) (hst' : store'.Shows now f n st') :
    st'.repositories = st.repositories ∧ (∀ c, st'.files c = st.files c) ∧
      st'.cursorEventId = st.cursorEventId ∧ st'.cursorEventDate = st.cursorEventDate := by
  have hseen : store.Undisturbed (Scope.of n f.namespaceRestrictions).nodeId store' := h
  have hevent (eventId : Int) : (Call.getEvent eventId).answer now store' none =
      (Call.getEvent eventId).answer now store none := by
    have hrun : ((Call.getEvent eventId).run now store').1 =
        ((Call.getEvent eventId).run now store).1 :=
      Call.lift_read_congr (by rw [h.events])
    rw [Call.answer, Call.answer, hrun]
  refine ⟨?_, fun c => ?_, ?_, ?_⟩
  · rw [hst'.repositories, hst.repositories, hseen.projectCount, hseen.registryCount,
      hseen.registryCount]
  · rw [hst'.files, hst.files, hseen.fileCounts]
  · rw [hst'.cursorEventId, hst.cursorEventId, h.cursor]
  · simp only [hst'.cursorEventDate, hst.cursorEventDate, h.cursor, hevent]

/-- **Nodes do not disturb each other.**  Whatever work is carried out for the node `a`, with
whatever outcome, nothing that is kept for another node `b` changes: its row, its links, its
registries, its copies and failures of files, and its cursor.  Nor does what is shown of it: a
status of `b` is given before and after, with the same numbers of repositories and files and the
same cursor, at any site where nothing is made to fail, by any health check that only asks.
A mirror that makes `b` ask for a copy in the middle of the work would be work for `b`. -/
theorem nodes_apart {a b : Int} (hab : b ≠ a) (w : Work) (hw : w.IsFor a) (s : Site)
    (hs : s.Unasked b) :
    s.store.Undisturbed b (w.after s).store ∧
      ∀ (h : HealthCheck), h.Asks → ∀ (f : Features) (n : Node), n.id = b →
        ∀ t : Site, t.faults = [] → ∃ st st',
          ((StatusReport.compute h f n).run { t with store := s.store }).1 = .ok st ∧
          ((StatusReport.compute h f n).run { t with store := (w.after s).store }).1 = .ok st' ∧
          st'.repositories = st.repositories ∧ st'.lfsObjects = st.lfsObjects ∧
          st'.attachments = st.attachments ∧ st'.cursorEventId = st.cursorEventId ∧
          st'.cursorEventDate = st.cursorEventDate := by
  have hstore := (hw.apart hab hs).store
  refine ⟨hstore, fun h hh f n hn t ht => ?_⟩
  subst hn
  obtain ⟨st, hrun, hshows⟩ := StatusReport.run_compute hh f n (s := { t with store := s.store }) ht
  obtain ⟨st', hrun', hshows'⟩ :=
    StatusReport.run_compute hh f n (s := { t with store := (w.after s).store }) ht
  obtain ⟨hrepositories, hfiles, hid, hdate⟩ := hstore.shows hshows hshows'
  exact ⟨st, st', hrun, hrun', hrepositories, hfiles .lfsObjects, hfiles .attachments, hid, hdate⟩

/-- A primary and two secondaries, 2 and 3.  The third has copied the only project and an upload and
has come to the end of the log; the mirror fails. -/
def sharedSite : Site :=
  let calls : List Call := [.createNamespace "group" none,
    .createNode ⟨⟨"http", "primary", 80, ""⟩, .primary, true, [], 1, 1⟩,
    .createNode ⟨⟨"http", "second", 80, ""⟩, .secondary, true, [], 1, 1⟩,
    .createNode ⟨⟨"http", "third", 80, ""⟩, .secondary, true, [1], 1, 1⟩,
    .createProject ⟨1, "a", "group/a", "default", false, none⟩,
    .createUpload ⟨.project, 1, "AvatarUploader", "a.png", 7⟩,
    .appendEvent ⟨.updated, 1, none⟩,
    .recordSyncSuccess 3 1 .repository .epoch, .recordFileSynced ⟨3, .avatar, 1, 7, none, .epoch⟩,
    .advanceCursor 3 1]
  { Site.start .epoch (calls.foldl (fun s c => (c.run .epoch s).2) .empty) [] with
    rules := [⟨none, none, none, 0, 0, false, none, some (.mirror "refused")⟩] }

/-- The third node, as it is registered there. -/
def thirdNode : Node :=
  ⟨3, ⟨"http", "third", 80, ""⟩, .secondary, true, [1], 1, 1, .epoch, .epoch⟩

theorem nodes_apart_attempt :
    ((Work.attempt .all 2 1).after sharedSite).store.registries.contains (2, 1) = true ∧
      sharedSite.store.Undisturbed 3 ((Work.attempt .all 2 1).after sharedSite).store ∧
      ∃ st st',
        ((StatusReport.compute (.localTo .standard "http://third/") .all thirdNode).run
          sharedSite).1 = .ok st ∧
        ((StatusReport.compute (.localTo .standard "http://third/") .all thirdNode).run
          { sharedSite with
            store := ((Work.attempt .all 2 1).after sharedSite).store }).1 = .ok st' ∧
        st'.repositories = st.repositories ∧ st'.cursorEventId = st.cursorEventId := by
  obtain ⟨hstore, hstatus⟩ := nodes_apart (a := 2) (b := 3) (by decide) (.attempt .all 2 1) rfl
    sharedSite (by decide +kernel)
  obtain ⟨st, st', hrun, hrun', hrepositories, -, -, hcursor, -⟩ :=
    hstatus _ (HealthCheck.asks_localTo .standard "http://third/") .all thirdNode rfl sharedSite rfl
  exact ⟨by decide +kernel, hstore, st, st', hrun, hrun', hrepositories, hcursor⟩

end GeoReplication
