import GeoReplication.Proofs.Replication.WithoutWikis
import GeoReplication.Proofs.Status.Unrestricted
import GeoReplication.Proofs.Tick.Alike

/-!
# Proofs/SwitchedOff — a feature that is switched off makes its data irrelevant

    wikis are not copied     what is kept of wikis              tick, attempt
    nodes are unrestricted   namespaces of nodes, and parents   tick, status
    dirty is not refreshed   times of updates, and requests     tick

Where the feature on the left is off, the programs on the right end the same on two sites that
differ in the data between them (`switched_off`).  For a tick that is so since the feature decides
what it asks for: the filter of candidates and the categories (`Hides`).
-/

namespace GeoReplication

open Program

/-- The program fetches no wiki, and keeps the half for the wiki of every registry there is. -/
structure Program.SparesWikis {α : Type} (t : Program α) : Prop where
  fetches : t.Every Effect.LeavesWikis fun _ => True
  keeps (s : Site) : s.store.KeepsWikis (t.run s).2.store

theorem Program.Every.sparesWikis {α : Type} {t : Program α}
    (h : t.Every Effect.LeavesWikis fun _ => True) : t.SparesWikis := ⟨h, h.keepsWikis⟩

namespace Scheduler

variable {sched : Scheduler} {n : Node}

/-! ## What a feature hides from a tick -/

theorem hides_wikis (hf : sched.config.features.wikiSync = false) :
    sched.Hides n Store.SameButWikis where
  nodes h := h.nodes
  leases h := h.leases
  candidates h _ := Store.SameButWikis.allCandidates h hf _
  setLeases h := h.setLeases

theorem hides_restrictions (hf : sched.config.features.namespaceRestrictions = false) :
    sched.Hides n Store.SameButRestrictions where
  nodes h := h.rest .nodes (by simp)
  leases h := h.rest .leases (by simp)
  candidates h _ := h.allCandidates (by rw [filter, hf]; rfl) _
  setLeases h := h.setLeases

theorem hides_updates (hf : sched.config.features.dirtyRefresh = false) :
    sched.Hides n Store.SameButUpdates where
  nodes h := h.nodes
  leases h := h.leases
  candidates h hc := Store.SameButUpdates.allCandidates h <| by
    rintro rfl
    simp [categories, hf] at hc
  setLeases h := h.setLeases

theorem filter_congr (hf : sched.config.features.namespaceRestrictions = false) (n : Node)
    (ids : List Int) : sched.filter { n with namespaceIds := ids } = sched.filter n := by
  rw [filter, filter, hf]
  rfl

/-- Where it sees no difference, a tick ends the same. -/
theorem Hides.sameEnd {Q : Store → Store → Prop} (h : sched.Hides n Q) (hl : sched.HasLease)
    {s : Site} {store : Store} (hQ : Q s.store store)
    (hprojects : store.projects.rows.map Prod.fst = s.store.projects.rows.map Prod.fst)
    (r : Rotation) : SameEnd Q (s.tick sched n r) ({ s with store }.tick sched n r) := by
  have hlimit : ({ s with store } : Site).tickLimit = s.tickLimit := by
    have hlength := congrArg List.length hprojects
    rw [List.length_map, List.length_map] at hlength
    rw [Site.tickLimit, Site.tickLimit, hlength]
  rw [Site.tick, Site.tick, hlimit]
  exact (h.alike_tick hl r _).sameEnd (.intro hQ rfl)

/-- **A tick leaves wikis alone.** -/
theorem every_tick_leavesWikis (hl : sched.HasLease) (r : Rotation) (limit : Nat) :
    (sched.tick n r limit).Every Effect.LeavesWikis fun _ => True :=
  every_tick trivial
    { lookUp := fun _ _ _ => trivial
      clock := trivial
      uptime := trivial
      inFlight := trivial
      isScheduled := fun _ => trivial
      push := fun _ => trivial
      lease := hl.does (fun c _ => by cases c <;> trivial) fun _ => trivial } r limit

/-! ## Switched off -/

/-- **What is switched off makes no difference.**  Take two stores that operations lead to.
If wikis are not copied and the stores differ in what is kept of them only, a tick ends the same on
both and so does an attempt; and no tick and no attempt fetches a wiki or touches what registries
say of one.
If nodes are not restricted and the stores differ only in the namespaces of nodes and in which
namespace lies below which, a tick and a status end the same on both, whatever the namespaces of the
node at hand.  The health check of the status must not look at these, and that of the installation
does not (`HealthCheck.ignoresRestrictions_localTo`).
If what is dirty is not refreshed and the stores differ only in when projects were updated and which
copies were asked for, a tick ends the same on both. -/
theorem switched_off (hl : sched.HasLease) (n : Node) (r : Rotation) (s : Site) (store : Store)
    (hs : s.store.Reached) (hs' : store.Reached) :
    (sched.config.features.wikiSync = false →
      (s.store.SameButWikis store →
        SameEnd Store.SameButWikis (s.tick sched n r) ({ s with store }.tick sched n r) ∧
        ∀ nodeId projectId, SameEnd Store.SameButWikis
          ((Attempt.run sched.config.features nodeId projectId).run s)
          ((Attempt.run sched.config.features nodeId projectId).run { s with store })) ∧
      (∀ limit, (sched.tick n r limit).SparesWikis) ∧
      ∀ nodeId projectId, (Attempt.run sched.config.features nodeId projectId).SparesWikis) ∧
    (sched.config.features.namespaceRestrictions = false → s.store.SameButRestrictions store →
      ∀ ids,
        SameEnd Store.SameButRestrictions (s.tick sched n r)
          ({ s with store }.tick sched { n with namespaceIds := ids } r) ∧
        ∀ h : HealthCheck, h.IgnoresRestrictions → SameEnd Store.SameButRestrictions
          ((StatusReport.compute h sched.config.features n).run s)
          ((StatusReport.compute h sched.config.features { n with namespaceIds := ids }).run
            { s with store })) ∧
    (sched.config.features.dirtyRefresh = false → s.store.SameButUpdates store →
      SameEnd Store.SameButUpdates (s.tick sched n r) ({ s with store }.tick sched n r)) := by
  refine ⟨fun hf => ⟨fun hsame => ⟨?_, fun nodeId projectId => ?_⟩, fun limit => ?_,
    fun nodeId projectId => ?_⟩, fun hf hsame ids => ⟨?_, fun h hh => ?_⟩, fun hf hsame => ?_⟩
  · exact (hides_wikis hf).sameEnd hl hsame hsame.projectNumbers r
  · have haside : s.WikisAside { s with store } := .intro ⟨hsame, hs, hs'⟩ rfl
    have hend := (Attempt.alike_run hf nodeId projectId).sameEnd haside
    exact ⟨hend.result, hend.queues, hend.stores.records⟩
  · exact (every_tick_leavesWikis hl r limit).sparesWikis
  · exact (Attempt.every_run hf nodeId projectId).sparesWikis
  · have hprojects : store.projects = s.store.projects := hsame.rest .projects (by simp)
    rw [Site.tick, Site.tick, tick_congr (filter_congr hf n ids)]
    exact (hides_restrictions hf).sameEnd hl hsame (by rw [hprojects]) r
  · rw [StatusReport.compute_congr hf h n ids]
    exact (StatusReport.alike_compute hh hf n).sameEnd (.intro hsame rfl)
  · exact (hides_updates hf).sameEnd hl hsame hsame.projectNumbers r

/-! ## Two projects -/

/-- A secondary of two projects, one of them copied, with its namespaces and the place of one
namespace below another. -/
def twoProjects (parent : Option Int) (ids : List Int) : Store :=
  let calls : List Call := [.createNamespace "group" none, .createNamespace "below" parent,
    .createNode ⟨⟨"http", "primary", 80, ""⟩, .primary, true, [], 1, 1⟩,
    .createNode ⟨⟨"http", "secondary", 80, ""⟩, .secondary, true, ids, 2, 1⟩,
    .createProject ⟨1, "a", "group/a", "default", true, none⟩,
    .createProject ⟨2, "b", "below/b", "default", true, none⟩,
    .recordSyncSuccess 2 1 .repository .epoch]
  calls.foldl (fun s c => (c.run .epoch s).2) .empty

/-- The secondary, as it is registered there. -/
def twoProjectsNode : Node :=
  ⟨2, ⟨"http", "secondary", 80, ""⟩, .secondary, true, [1], 2, 1, .epoch, .epoch⟩

/-- A scheduler with all features on or all off. -/
def switched (on : Bool) : Scheduler :=
  ⟨{ Config.standard with features := ⟨on, on, on⟩ }, ["default"], .stored "holder", "repositories"⟩

theorem reached_twoProjects (parent : Option Int) (ids : List Int) :
    (twoProjects parent ids).Reached := .calls .epoch _ .empty

/-- The namespaces lie, and the node is restricted, one way or the other. -/
theorem sameButRestrictions_twoProjects :
    (twoProjects none [1]).SameButRestrictions (twoProjects (some 1) [2]) where
  rest p hp := by
    cases p <;> first | rfl | simp at hp
  namespaces := Store.Numbered.map_get?_congr rfl

/-- A wiki that could not be copied, other restrictions, a copy that was asked for. -/
theorem switched_off_each :
    let site (store : Store) : Site := .start .epoch store []
    let s := twoProjects none [1]
    let wiki := ((Call.recordSyncFailure 2 1 .wiki "refused").run .epoch s).2
    let restricted := twoProjects (some 1) [2]
    let asked := ((Call.requestResync 2 1 .repository).run .epoch s).2
    let sched := switched false
    let n := twoProjectsNode
    (SameEnd Store.SameButWikis ((site s).tick sched n .empty) ((site wiki).tick sched n .empty) ∧
      SameEnd Store.SameButWikis ((Attempt.run sched.config.features 2 1).run (site s))
        ((Attempt.run sched.config.features 2 1).run (site wiki))) ∧
    (SameEnd Store.SameButRestrictions ((site s).tick sched n .empty)
        ((site restricted).tick sched { n with namespaceIds := [2] } .empty) ∧
      SameEnd Store.SameButRestrictions
        ((StatusReport.compute (.localTo .standard "http://secondary/") sched.config.features n).run
          (site s))
        ((StatusReport.compute (.localTo .standard "http://secondary/") sched.config.features
          { n with namespaceIds := [2] }).run (site restricted))) ∧
    SameEnd Store.SameButUpdates ((site s).tick sched n .empty)
      ((site asked).tick sched n .empty) := by
  intro site s wiki restricted asked sched n
  have hl : sched.HasLease := .inl ⟨_, rfl⟩
  have hs : s.Reached := reached_twoProjects none [1]
  have hthere : s.registries.contains (2, 1) = true := by decide +kernel
  have hwiki := switched_off hl n .empty (site s) wiki hs (.call _ _ hs)
  have hrestricted := switched_off hl n .empty (site s) restricted hs (reached_twoProjects _ _)
  have hasked := switched_off hl n .empty (site s) asked hs (.call _ _ hs)
  obtain ⟨htick, hattempt⟩ := (hwiki.1 rfl).1 (.rewrite rfl hthere)
  obtain ⟨htick', hstatus⟩ := hrestricted.2.1 rfl sameButRestrictions_twoProjects [2]
  exact ⟨⟨htick, hattempt 2 1⟩, ⟨htick', hstatus _ (HealthCheck.ignoresRestrictions_localTo _ _)⟩,
    hasked.2.2 rfl (.requestResync _ _ _ _ _)⟩

example : let asked := ((Call.requestResync 2 1 .repository).run .epoch (twoProjects none [1])).2
    (((Site.start .epoch asked []).tick (switched false) twoProjectsNode .empty).1.toOption.map
      (·.1.scheduled), ((Site.start .epoch asked []).tick (switched true) twoProjectsNode
        .empty).1.toOption.map (·.1.scheduled)) = (some [2], some [1]) := by decide +kernel

end Scheduler

end GeoReplication
