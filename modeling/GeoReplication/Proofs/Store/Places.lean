import GeoReplication.Proofs.Store.Actions

/-!
# Proofs/Store/Places — where operations write

`Call.writes` lists the tables that an operation may change.  `Call.sameBut_run` says that all the
others stay as they are, whatever becomes of the operation.
-/

namespace GeoReplication

open GeoReplication.Store

/-- The tables of a store. -/
inductive Place where
  | namespaces | projects | nodes | links | registries | uploads | lfsObjects | lfsLinks
  | copies | failures | events | cursors | leases | heartbeat
deriving DecidableEq

/-- What lies in a table. -/
abbrev Place.Content : Place → Type
  | namespaces => Numbered NamespaceRow
  | projects => Numbered ProjectRow
  | nodes => Numbered NodeRow
  | links => Table (Int × Int) Unit
  | registries => Table (Int × Int) RegistryRow
  | uploads => Numbered UploadRow
  | lfsObjects => Numbered LfsObjectRow
  | lfsLinks => Table (Int × Int) Unit
  | copies => Table (Int × FileType × Int) CopyRow
  | failures => Table (Int × FileType × Int) FailureRow
  | events => Numbered EventRow
  | cursors => Table Int Int
  | leases => Table String LeaseRow
  | heartbeat => Option String

/-- The tables that number their rows. -/
inductive Series where
  | namespaces | projects | nodes | uploads | lfsObjects | events
deriving DecidableEq

/-- The rows of a table that numbers them. -/
abbrev Series.Row : Series → Type
  | namespaces => NamespaceRow
  | projects => ProjectRow
  | nodes => NodeRow
  | uploads => UploadRow
  | lfsObjects => LfsObjectRow
  | events => EventRow

/-- The table among all tables. -/
def Series.place : Series → Place
  | namespaces => .namespaces
  | projects => .projects
  | nodes => .nodes
  | uploads => .uploads
  | lfsObjects => .lfsObjects
  | events => .events

namespace Store

/-- What lies in a table of the store. -/
def table (s : Store) : (p : Place) → p.Content
  | .namespaces => s.namespaces
  | .projects => s.projects
  | .nodes => s.nodes
  | .links => s.links
  | .registries => s.registries
  | .uploads => s.uploads
  | .lfsObjects => s.lfsObjects
  | .lfsLinks => s.lfsLinks
  | .copies => s.copies
  | .failures => s.failures
  | .events => s.events
  | .cursors => s.cursors
  | .leases => s.leases
  | .heartbeat => s.heartbeat

/-- A table of the store that numbers its rows. -/
def series (s : Store) : (t : Series) → Numbered t.Row
  | .namespaces => s.namespaces
  | .projects => s.projects
  | .nodes => s.nodes
  | .uploads => s.uploads
  | .lfsObjects => s.lfsObjects
  | .events => s.events

/-- The store with something else in one table. -/
def put (s : Store) : (p : Place) → p.Content → Store
  | .namespaces, namespaces => { s with namespaces }
  | .projects, projects => { s with projects }
  | .nodes, nodes => { s with nodes }
  | .links, links => { s with links }
  | .registries, registries => { s with registries }
  | .uploads, uploads => { s with uploads }
  | .lfsObjects, lfsObjects => { s with lfsObjects }
  | .lfsLinks, lfsLinks => { s with lfsLinks }
  | .copies, copies => { s with copies }
  | .failures, failures => { s with failures }
  | .events, events => { s with events }
  | .cursors, cursors => { s with cursors }
  | .leases, leases => { s with leases }
  | .heartbeat, heartbeat => { s with heartbeat }

theorem table_put_of_ne {p q : Place} (h : q ≠ p) (s : Store) (content : p.Content) :
    (s.put p content).table q = s.table q := by
  cases p <;> cases q <;> first | rfl | exact absurd rfl h

/-- The stores differ in some tables at most. -/
def SameBut (places : List Place) (s s' : Store) : Prop := ∀ p ∉ places, s'.table p = s.table p

variable {places : List Place}

theorem SameBut.series {s s' : Store} (h : SameBut places s s') {t : Series}
    (ht : t.place ∉ places) : s'.series t = s.series t := by
  cases t <;> exact h _ ht

instance : IsPreorder Store (SameBut places) where
  refl _ _ _ := rfl
  trans _ _ _ h h' p hp := (h' p hp).trans (h p hp)

theorem sameBut_put {p : Place} (hp : p ∈ places) (s : Store) (content : p.Content) :
    SameBut places s (s.put p content) := fun _ hq =>
  table_put_of_ne (ne_of_mem_of_not_mem hp hq).symm s content

end Store

namespace Call

/-- The tables that an operation may change. -/
def writes : Call → List Place
  | createNamespace _ _ => [.namespaces]
  | createProject _ => [.projects]
  | deleteProject _ => [.projects, .registries, .lfsLinks]
  | touchProject _ _ _ => [.projects]
  | expireRepositoryCache _ => [.projects]
  | createUpload _ => [.uploads]
  | createLfsObject _ _ => [.lfsObjects]
  | linkLfsObject _ _ => [.lfsLinks]
  | createNode _ => [.nodes, .links]
  | updateNode _ => [.nodes, .links]
  | deleteNode _ => [.nodes, .links, .registries, .copies, .failures, .cursors]
  | recordSyncSuccess _ _ _ _ => [.registries]
  | recordSyncFailure _ _ _ _ => [.registries]
  | requestResync _ _ _ => [.registries]
  | deleteRegistry _ _ => [.registries]
  | recordFileSynced _ => [.copies, .failures]
  | recordFileFailure _ _ _ _ => [.failures]
  | appendEvent _ => [.events]
  | advanceCursor _ _ => [.cursors]
  | obtainLease _ _ _ => [.leases]
  | renewLease _ _ _ => [.leases]
  | releaseLease _ _ => [.leases]
  | writeHeartbeat _ => [.heartbeat]
  | _ => []

open GeoReplication.Action

/-- A row of registries is made sure of and changed within the table of registries. -/
theorem sameBut_ensureRegistry (now : Time.Instant) (nodeId projectId : Int) :
    (Store.ensureRegistry now nodeId projectId).Leads (SameBut [.registries]) := by
  refine leads_statement fun s a s' h => ?_
  split at h
  · cases h
    exact refl_of _ s
  · split at h <;> cases h
    exact sameBut_put (p := .registries) List.mem_cons_self s _

theorem sameBut_changePart (nodeId projectId : Int) (part : Part) (f : PartRow → PartRow) :
    (Store.changePart nodeId projectId part f).Leads (SameBut [.registries]) := by
  refine leads_statement ?_
  rintro s a s' ⟨⟩
  exact sameBut_put (p := .registries) List.mem_cons_self s _

/-- **Operations write in their own tables only.** -/
theorem sameBut_run (c : Call) (now : Time.Instant) (s : Store) :
    SameBut c.writes s (c.run now s).2 := by
  cases c with
  | createNode n =>
    exact leads_lift (Store.leads_createNode (R := SameBut [.nodes, .links])
      (fun s => sameBut_put (p := .links) (by simp) s)
      (fun s _ => sameBut_put (p := .nodes) (by simp) s _) now n) s
  | updateNode n =>
    exact leads_lift (Store.leads_updateNode (R := SameBut [.nodes, .links])
      (fun s => sameBut_put (p := .links) (by simp) s)
      (fun s _ _ => sameBut_put (p := .nodes) (by simp) s _) now n) s
  | obtainLease key holder ttl =>
    obtain ⟨leases, hrun⟩ := OnLeases.leases (c := obtainLease key holder ttl) trivial now s
    rw [hrun]
    exact sameBut_put (p := .leases) List.mem_cons_self s leases
  | renewLease key holder ttl =>
    obtain ⟨leases, hrun⟩ := OnLeases.leases (c := renewLease key holder ttl) trivial now s
    rw [hrun]
    exact sameBut_put (p := .leases) List.mem_cons_self s leases
  | releaseLease key holder =>
    obtain ⟨leases, hrun⟩ := OnLeases.leases (c := releaseLease key holder) trivial now s
    rw [hrun]
    exact sameBut_put (p := .leases) List.mem_cons_self s leases
  | recordSyncSuccess nodeId projectId part started =>
    exact leads_lift (Leads.transaction ((sameBut_ensureRegistry now nodeId projectId).bind fun _ =>
      (sameBut_changePart nodeId projectId part _).bind fun _ => leads_read _)) s
  | recordSyncFailure nodeId projectId part reason =>
    exact leads_lift (Leads.transaction ((sameBut_ensureRegistry now nodeId projectId).bind fun _ =>
      (sameBut_changePart nodeId projectId part _).bind fun _ => leads_read _)) s
  | requestResync nodeId projectId part =>
    exact leads_lift (Leads.transaction ((sameBut_ensureRegistry now nodeId projectId).bind fun _ =>
      sameBut_changePart nodeId projectId part _)) s
  | createProject p =>
    refine leads_lift (Leads.bind (leads_statement fun s a s' h => ?_) fun _ => leads_read _) s
    split at h
    · cases h
    · split at h <;> cases h
      exact sameBut_put (p := .projects) List.mem_cons_self s _
  | touchProject id part time =>
    refine leads_lift (leads_statement fun s a s' h => ?_) s
    split at h <;> cases h
    exact sameBut_put (p := .projects) List.mem_cons_self s _
  | createNamespace name parentId =>
    refine leads_lift (leads_statement fun s a s' h => ?_) s
    dsimp only at h
    split at h <;> cases h
    exact sameBut_put (p := .namespaces) List.mem_cons_self s _
  | createLfsObject oid size =>
    refine leads_lift (leads_statement fun s a s' h => ?_) s
    split at h <;> cases h
    exact sameBut_put (p := .lfsObjects) List.mem_cons_self s _
  | linkLfsObject lfsObjectId projectId =>
    refine leads_lift (leads_statement fun s a s' h => ?_) s
    split at h
    · cases h
      exact refl_of _ s
    · split at h <;> cases h
      exact sameBut_put (p := .lfsLinks) List.mem_cons_self s _
  | recordFileSynced copy =>
    refine leads_lift (leads_statement fun s a s' h => ?_) s
    dsimp only at h
    split at h <;> cases h
    intro p hp
    cases p <;> first | rfl | simp [writes] at hp
  | recordFileFailure nodeId fileType fileId reason =>
    refine leads_lift (leads_statement fun s a s' h => ?_) s
    dsimp only at h
    split at h <;> cases h
    exact sameBut_put (p := .failures) List.mem_cons_self s _
  | advanceCursor nodeId eventId =>
    refine leads_lift (Leads.bind (leads_statement fun s a s' h => ?_) fun _ => leads_read _) s
    dsimp only at h
    split at h <;> cases h
    exact sameBut_put (p := .cursors) List.mem_cons_self s _
  | deleteProject id =>
    intro p hp
    cases p <;> first | rfl | simp [writes] at hp
  | deleteNode id =>
    intro p hp
    cases p <;> first | rfl | simp [writes] at hp
  | expireRepositoryCache id => exact sameBut_put (p := .projects) List.mem_cons_self s _
  | createUpload u => exact sameBut_put (p := .uploads) List.mem_cons_self s _
  | deleteRegistry nodeId projectId => exact sameBut_put (p := .registries) List.mem_cons_self s _
  | appendEvent e => exact sameBut_put (p := .events) List.mem_cons_self s _
  | writeHeartbeat time => exact sameBut_put (p := .heartbeat) List.mem_cons_self s _
  | findNodeByUrl url => exact leads_lift (Leads.bind (leads_read _) fun _ => leads_pure _) s
  | prepare => exact refl_of _ s
  | ping => exact refl_of _ s
  | _ => exact leads_lift (leads_read _) s

end Call

end GeoReplication
