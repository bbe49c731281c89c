import GeoReplication.Proofs.Program.Alike
import GeoReplication.Proofs.Status.AddsUp
import GeoReplication.Proofs.Store.Columns
import GeoReplication.Proofs.Store.FindsItself

/-!
# Proofs/Status/Unrestricted — a status where nodes are not restricted

Where restrictions are switched off, everything that a status asks for is answered the same, however
the nodes are restricted and the namespaces nested (`alike_compute`).  The node of the installation
is looked up with its namespaces, but the checks do not look at them.
-/

namespace GeoReplication

open Program GeoReplication.Time

/-- The node without its namespaces. -/
def Node.unrestricted (n : Node) : Node := { n with namespaceIds := [] }

/-- The sites differ in the restrictions of nodes only. -/
abbrev Site.RestrictionsAside : Site → Site → Prop :=
  Site.Beside Store.SameButRestrictions Eq

/-! ## Questions that are answered the same -/

section Questions

variable {α : Type} {c : Call} {scope : Scope}

/-- A question is answered alike if it is so with any other namespaces and links. -/
theorem alike_question {r : c.Reply → c.Reply → Prop} (hc : c.writes = [])
    (h : ∀ now (s : Store) namespaces links, Agree r (c.run now s).1
      (c.run now { s with namespaces, links }).1) :
    Alike Site.RestrictionsAside r (call c) (call c) :=
  .call fun s s' hs => hs.call <| by
    rw [Call.run_of_writes_nil hc, Call.run_of_writes_nil hc]
    have hagree := h s.now s.store s'.store.namespaces s'.store.links
    rw [← hs.store.eq] at hagree
    exact ⟨hagree, hs.store⟩

theorem alike_answer (hc : c.writes = [])
    (h : ∀ now (s : Store) namespaces links,
      (c.run now s).1 = (c.run now { s with namespaces, links }).1) :
    Alike Site.RestrictionsAside (· = ·) (call c) (call c) :=
  alike_question hc fun now s namespaces links => .of_eq (fun _ => rfl) (h now s namespaces links)

theorem alike_countProjects (hscope : scope.restricted = false) :
    Alike Site.RestrictionsAside (· = ·) (call (.countProjects scope))
      (call (.countProjects scope)) :=
  alike_answer rfl fun now s namespaces links => by
    simp only [Call.run, Call.lift, Store.countProjects, Action.run_read, Store.projectCount,
      Store.visibleProjects, Store.sees, hscope, Bool.not_false, Bool.true_or]

theorem alike_countRegistries (hscope : scope.restricted = false) (part : Part)
    (state : SyncState) :
    Alike Site.RestrictionsAside (· = ·) (call (.countRegistries scope part state))
      (call (.countRegistries scope part state)) :=
  alike_answer rfl fun now s namespaces links => by
    simp only [Call.run, Call.lift, Store.countRegistries, Action.run_read, Store.registryCount,
      Store.sees, hscope, Bool.not_false, Bool.true_or]

theorem alike_countFiles (hscope : scope.restricted = false) (c : FileClass) :
    Alike Site.RestrictionsAside (· = ·) (call (.countFiles scope c))
      (call (.countFiles scope c)) :=
  alike_answer rfl fun now s namespaces links => by
    cases c <;> simp only [Call.run, Call.lift, Store.countFiles, Action.run_read,
      Store.fileCounts, Store.visibleFiles, Store.seesLfsObject, Store.seesUpload,
      Store.hasCopy, Store.hasFailure, hscope, Bool.not_false, Bool.true_or]

theorem alike_lastEvent :
    Alike Site.RestrictionsAside (· = ·) (call .lastEvent) (call .lastEvent) :=
  alike_answer rfl fun _ _ _ _ => Call.lift_read_congr rfl

theorem alike_getEvent (id : Int) :
    Alike Site.RestrictionsAside (· = ·) (call (.getEvent id)) (call (.getEvent id)) :=
  alike_answer rfl fun _ _ _ _ => Call.lift_read_congr rfl

theorem alike_getCursor (nodeId : Int) :
    Alike Site.RestrictionsAside (· = ·) (call (.getCursor nodeId)) (call (.getCursor nodeId)) :=
  alike_answer rfl fun _ _ _ _ => rfl

theorem agree_mapM {β γ : Type} {f g : α → Except Error β} {u : β → γ}
    (h : ∀ a, (f a).map u = (g a).map u) : ∀ as : List α,
      Agree (fun bs bs' => bs.map u = bs'.map u) (as.mapM f) (as.mapM g)
  | [] => rfl
  | a :: as => by
    have hfirst := h a
    have hrest := agree_mapM h as
    rw [List.mapM_cons, List.mapM_cons]
    cases hf : f a <;> cases hg : g a <;> rw [hf, hg] at hfirst
    · exact Except.error.inj hfirst
    · cases hfirst
    · cases hfirst
    · revert hrest
      cases as.mapM f <;> cases as.mapM g <;> intro hrest
      · exact hrest
      · exact hrest
      · exact hrest
      · exact List.cons_eq_cons.mpr ⟨Except.ok.inj hfirst, hrest⟩

/-- The same nodes are listed, but for their namespaces. -/
theorem agree_readNodes (now : Instant) (s : Store) (namespaces : Store.Numbered NamespaceRow)
    (links : Store.Table (Int × Int) Unit) :
    Agree (fun nodes nodes' => nodes.map Node.unrestricted = nodes'.map Node.unrestricted)
      (s.readNodes now) ({ s with namespaces, links }.readNodes now) := by
  refine agree_mapM (fun r => ?_) s.nodes.rows
  rw [Store.nodeOf, Store.nodeOf, NodeRow.record_eq_map,
    NodeRow.record_eq_map now r.1 (Store.namespacesOf _ r.1)]
  cases r.2.record now r.1 [] <;> rfl

/-- The same node is found, whatever its namespaces. -/
theorem alike_findNodeByUrl (url : String) :
    Alike Site.RestrictionsAside
      (fun o o' => o.map Node.unrestricted = o'.map Node.unrestricted)
      (call (.findNodeByUrl url)) (call (.findNodeByUrl url)) :=
  alike_question rfl fun now s namespaces links => by
    have hnodes := agree_readNodes now s namespaces links
    rw [Store.run_findNodeByUrl, Store.run_findNodeByUrl]
    revert hnodes
    cases s.readNodes now <;> cases { s with namespaces, links }.readNodes now <;> intro hnodes
    · exact congrArg Failure.error hnodes
    · exact hnodes
    · exact hnodes
    · have hfind (nodes : List Node) : (nodes.find? fun n =>
          Address.lookupKey n.url == Address.lookupKey url).map Node.unrestricted =
            (nodes.map Node.unrestricted).find? fun n =>
              Address.lookupKey n.url == Address.lookupKey url := by
        rw [List.find?_map]
        rfl
      rw [Agree, hfind, hfind, hnodes]

theorem alike_orDefault {t : Program α} (ht : Alike Site.RestrictionsAside (· = ·) t t) (d : α) :
    Alike Site.RestrictionsAside (· = ·) (StatusReport.orDefault d t)
      (StatusReport.orDefault d t) := by
  refine ht.attempt_eq.bind_eq fun x => ?_
  cases x <;> exact .pure rfl

end Questions

/-! ## The check of the installation itself -/

namespace HealthCheck

/-- The check goes the same way however nodes are restricted. -/
structure IgnoresRestrictions (h : HealthCheck) : Prop where
  process (checks : List String) :
    Alike Site.RestrictionsAside (· = ·) (h.process checks) (h.process checks)
  lag : Alike Site.RestrictionsAside (· = ·) h.lag h.lag

end HealthCheck

namespace Health

theorem alike_logFailures {n n' : Node} (hid : n'.id = n.id) :
    Alike Site.RestrictionsAside (· = ·) (logFailures n) (logFailures n') := by
  have hcursor : Alike Site.RestrictionsAside (· = ·) (call (.getCursor n.id))
      (call (.getCursor n'.id)) := by
    rw [hid]
    exact alike_getCursor n.id
  refine hcursor.attempt_eq.bind_eq fun cursor => ?_
  refine alike_lastEvent.attempt_eq.bind_eq fun last => ?_
  rcases cursor with e | _ | cursor <;> rcases last with e' | last
  all_goals first | exact .pure rfl | skip
  dsimp only
  split <;> exact .pure rfl

theorem alike_failures (c : Config) (nodeUrl : String) :
    Alike Site.RestrictionsAside (· = ·) (failures c nodeUrl) (failures c nodeUrl) := by
  have hping := alike_answer (c := .ping) rfl fun _ _ _ _ => rfl
  refine hping.attempt_eq.bind_eq fun ping => ?_
  cases ping with
  | error e => exact .pure rfl
  | ok _ =>
    refine (alike_findNodeByUrl nodeUrl).attempt.bind fun found found' hfound => ?_
    cases found <;> cases found'
    · obtain rfl := hfound
      exact .pure rfl
    · exact hfound.elim
    · exact hfound.elim
    · rcases both_of_map_eq (Eq.symm hfound) with ⟨rfl, rfl⟩ | ⟨n, n', rfl, rfl, hn⟩
      · exact .pure rfl
      · have hid : n'.id = n.id := (congrArg Node.id hn :)
        have hnode : nodeFailures c n' = nodeFailures c n := (congrArg (nodeFailures c) hn :)
        dsimp only
        rw [hnode]
        refine (alike_logFailures hid).bind_eq fun found => ?_
        exact .pure rfl

theorem alike_process (c : Config) (nodeUrl : String) : ∀ checks : List String,
    Alike Site.RestrictionsAside (· = ·) (process c nodeUrl checks) (process c nodeUrl checks)
  | [] => .pure rfl
  | check :: checks => by
      rw [process]
      split
      · refine (alike_failures c nodeUrl).bind_eq fun found => ?_
        refine (alike_process c nodeUrl checks).bind_eq fun rest => ?_
        exact .pure rfl
      · exact .fail _

theorem alike_lag : Alike Site.RestrictionsAside (· = ·) lag lag := by
  have hbeat := alike_answer (c := .lastHeartbeat) rfl fun _ _ _ _ => rfl
  refine hbeat.bind_eq fun beat => ?_
  cases beat with
  | none => exact .pure rfl
  | some beat =>
    refine alike_clock.bind_eq fun now => ?_
    exact .pure rfl

end Health

theorem HealthCheck.ignoresRestrictions_localTo (c : Config) (nodeUrl : String) :
    (localTo c nodeUrl).IgnoresRestrictions where
  process checks := (Health.alike_process c nodeUrl checks).bind fun _ _ h => .pure (congrArg _ h)
  lag := Health.alike_lag

/-! ## The status -/

namespace StatusReport

variable {scope : Scope} {h : HealthCheck} {f : Features}

theorem alike_checkup (hh : h.IgnoresRestrictions) (n : Node) :
    Alike Site.RestrictionsAside (· = ·) (checkup h n) (checkup h n) := by
  rw [checkup]
  split
  · refine (hh.process ["geo"]).attempt_eq.bind_eq fun r => ?_
    cases r <;> exact .pure rfl
  · exact .pure rfl

theorem alike_delay (hh : h.IgnoresRestrictions) (n : Node) :
    Alike Site.RestrictionsAside (· = ·) (delay h n) (delay h n) := by
  rw [delay]
  split
  · exact alike_orDefault hh.lag none
  · exact .pure rfl

theorem alike_repositories (hscope : scope.restricted = false) :
    Alike Site.RestrictionsAside (· = ·) (repositories scope) (repositories scope) := by
  refine (alike_orDefault (alike_countProjects hscope) 0).bind_eq fun total => ?_
  have hcount (state : SyncState) := alike_countRegistries hscope .repository state
  refine (alike_orDefault (hcount .synced) 0).bind_eq fun synced => ?_
  refine (alike_orDefault (hcount .syncFailed) 0).bind_eq fun failed => ?_
  exact .pure rfl

theorem alike_files (hscope : scope.restricted = false) (c : FileClass) :
    Alike Site.RestrictionsAside (· = ·) (files scope c) (files scope c) := by
  refine (alike_orDefault (alike_countFiles hscope c) ⟨0, 0, 0⟩).bind_eq fun counts => ?_
  exact .pure rfl

theorem alike_cursor (n : Node) (st : NodeStatus) :
    Alike Site.RestrictionsAside (· = ·) (cursor n st) (cursor n st) := by
  refine (alike_orDefault (alike_getCursor n.id) none).bind_eq fun cursor => ?_
  cases cursor with
  | none => exact .pure rfl
  | some cursor =>
    refine (alike_orDefault (alike_getEvent cursor.eventId) none).bind_eq fun event => ?_
    exact .pure rfl

theorem alike_reportOn (hf : f.namespaceRestrictions = false) (n : Node)
    (health : Bool × String) (lag : Option Int) :
    Alike Site.RestrictionsAside (· = ·) (reportOn f n health lag) (reportOn f n health lag) := by
  have hscope : (Scope.of n f.namespaceRestrictions).restricted = false := by
    rw [hf]
    rfl
  refine (alike_repositories hscope).bind_eq fun repositories => ?_
  refine (alike_files hscope .lfsObjects).bind_eq fun lfsObjects => ?_
  refine (alike_files hscope .attachments).bind_eq fun attachments => ?_
  refine (alike_orDefault alike_lastEvent none).bind_eq fun last => ?_
  dsimp only
  split
  · exact alike_cursor n _
  · exact .pure rfl

/-- Where restrictions are switched off, the namespaces of the node do not go into its status. -/
theorem compute_congr (hf : f.namespaceRestrictions = false) (h : HealthCheck) (n : Node)
    (ids : List Int) : compute h f { n with namespaceIds := ids } = compute h f n := by
  rw [compute_eq, compute_eq]
  simp only [reportOn, hf]
  rfl

/-- **A status is the same** however nodes are restricted, where restrictions are switched off. -/
theorem alike_compute (hh : h.IgnoresRestrictions) (hf : f.namespaceRestrictions = false)
    (n : Node) : Alike Site.RestrictionsAside (· = ·) (compute h f n) (compute h f n) := by
  rw [compute_eq]
  refine (alike_checkup hh n).bind_eq fun health => ?_
  refine (alike_delay hh n).bind_eq fun lag => ?_
  exact alike_reportOn hf n health lag

end StatusReport

end GeoReplication
