import GeoReplication.Proofs.Program.Looks
import GeoReplication.Proofs.Store.Counts
import GeoReplication.Proofs.Store.Nodes

/-!
# Proofs/Store/Apart — what is kept for one node stays apart from what is kept for another

    nodes, cursors                          one row for a node
    links, registries, copies, failures     rows whose keys begin with a node

All nodes share these tables.  `Store.Undisturbed b` says that in each of them the rows of the node
`b` are the same and in the same order, and that there is the same to be copied.  Operations carried
out for another node keep it (`Call.Spares.run`), and it is all that the numbers of a status are
about (`Undisturbed.projectCount`, `Undisturbed.registryCount`, `Undisturbed.fileCounts`).
-/

namespace GeoReplication

open GeoReplication.Time

namespace Store

/-! ## Rows that belong to a node -/

namespace Table

variable {β α : Type} {t t' : Table (Int × β) α} {node : Int} {k : Int × β}

/-- The rows whose keys begin with a node. -/
def rowsOf (t : Table (Int × β) α) (node : Int) : List ((Int × β) × α) :=
  t.rows.filter fun r => r.1.1 = node

theorem rowsOf_filter {q : Int × β → α → Bool} (h : ∀ k a, k.1 = node → q k a = true) :
    (t.filter q).rowsOf node = t.rowsOf node := by
  simp only [rowsOf, filter, List.filter_filter]
  refine List.filter_congr fun r _ => ?_
  by_cases hr : r.1.1 = node
  · simp [hr, h r.1 r.2 hr]
  · simp [hr]

theorem rowsOf_filter_ne {other : Int} (h : node ≠ other) :
    (t.filter fun k _ => decide (k.1 ≠ other)).rowsOf node = t.rowsOf node :=
  rowsOf_filter fun _ _ hk => decide_eq_true (hk ▸ h)

variable [DecidableEq β]

theorem rowsOf_erase (h : k.1 ≠ node) : (t.erase k).rowsOf node = t.rowsOf node :=
  rowsOf_filter fun _ _ hk => decide_eq_true fun he => h (he ▸ hk)

theorem rowsOf_modify (h : k.1 ≠ node) (f : α → α) :
    (t.modify k f).rowsOf node = t.rowsOf node := by
  simp only [rowsOf, modify, change, changeRows, List.filter_map, Function.comp_def]
  refine (List.map_congr_left fun r hr => ?_).trans (List.map_id _)
  have hother : r.1 ≠ k := fun he => h (he ▸ of_decide_eq_true (List.mem_filter.mp hr).2)
  simp [hother]

theorem rowsOf_insert (h : k.1 ≠ node) (a : α) : (t.insert k a).rowsOf node = t.rowsOf node := by
  rw [insert]
  split
  · rfl
  · simp [rowsOf, h]

theorem rowsOf_upsert (h : k.1 ≠ node) (new : α) (f : α → α) :
    (t.upsert k new f).rowsOf node = t.rowsOf node := by
  rw [upsert]
  split
  · exact rowsOf_modify h f
  · exact rowsOf_insert h new

/-- The rows of a node decide what is looked up for it. -/
theorem get?_of_rowsOf (h : t'.rowsOf k.1 = t.rowsOf k.1) : t'.get? k = t.get? k := by
  have hfilter (t : Table (Int × β) α) : lookupRow k (t.rowsOf k.1) = t.get? k := by
    refine (lookupRow_filter (fun k' _ => decide (k'.1 = k.1)) k t.nodup).trans ?_
    cases hrow : lookupRow k t.rows <;> simp [get?, hrow, Option.filter]
  rw [← hfilter, h, hfilter]

theorem contains_of_rowsOf (h : t'.rowsOf k.1 = t.rowsOf k.1) : t'.contains k = t.contains k := by
  rw [contains, get?_of_rowsOf h, contains]

end Table

/-! ## Stores in which one node is left alone -/

/-- Nothing that is kept for the node has changed, and there is the same to be copied: projects lie
in the namespaces they lay in, and the files and the event log are the same. -/
structure Undisturbed (node : Int) (s s' : Store) : Prop where
  row : s'.nodes.get? node = s.nodes.get? node
  cursor : s'.cursors.get? node = s.cursors.get? node
  links : s'.links.rowsOf node = s.links.rowsOf node
  registries : s'.registries.rowsOf node = s.registries.rowsOf node
  copies : s'.copies.rowsOf node = s.copies.rowsOf node
  failures : s'.failures.rowsOf node = s.failures.rowsOf node
  projects : s'.projects.rows.map (fun r => (r.1, r.2.namespaceId)) =
    s.projects.rows.map fun r => (r.1, r.2.namespaceId)
  rest : SameBut
    [.nodes, .cursors, .links, .registries, .copies, .failures, .projects, .leases] s s'

variable {node : Int} {s s' s'' : Store}

instance : IsPreorder Store (Undisturbed node) where
  refl s := ⟨rfl, rfl, rfl, rfl, rfl, rfl, rfl, refl_of _ s⟩
  trans _ _ _ h h' :=
    ⟨h'.row.trans h.row, h'.cursor.trans h.cursor, h'.links.trans h.links,
      h'.registries.trans h.registries, h'.copies.trans h.copies, h'.failures.trans h.failures,
      h'.projects.trans h.projects, trans_of _ h.rest h'.rest⟩

namespace Undisturbed

/-- A change of registries that leaves those of the node alone. -/
theorem of_registries {registries : Table (Int × Int) RegistryRow}
    (h : registries.rowsOf node = s.registries.rowsOf node) :
    s.Undisturbed node { s with registries } :=
  ⟨rfl, rfl, rfl, h, rfl, rfl, rfl, sameBut_put (p := .registries) (by simp) s registries⟩

/-- A change of projects that leaves them where they are. -/
theorem of_projects {id : Int} {f : ProjectRow → ProjectRow}
    (h : ∀ row, (f row).namespaceId = row.namespaceId) :
    s.Undisturbed node { s with projects := s.projects.modify id f } := by
  refine ⟨rfl, rfl, rfl, rfl, rfl, rfl, ?_, sameBut_put (p := .projects) (by simp) s _⟩
  simp only [Numbered.modify, Numbered.change, changeRows, List.map_map]
  refine List.map_congr_left fun r _ => ?_
  by_cases hid : r.1 = id <;> simp [hid, h]

theorem of_leases {leases : Table String LeaseRow} : s.Undisturbed node { s with leases } :=
  ⟨rfl, rfl, rfl, rfl, rfl, rfl, rfl, sameBut_put (p := .leases) (by simp) s leases⟩

/-! ## What is seen and counted -/

/-- A table that is shared by all nodes, and that none of them writes to. -/
theorem namespaces (h : s.Undisturbed node s') : s'.namespaces = s.namespaces :=
  h.rest .namespaces (by simp)

theorem uploads (h : s.Undisturbed node s') : s'.uploads = s.uploads := h.rest .uploads (by simp)

theorem lfsObjects (h : s.Undisturbed node s') : s'.lfsObjects = s.lfsObjects :=
  h.rest .lfsObjects (by simp)

theorem lfsLinks (h : s.Undisturbed node s') : s'.lfsLinks = s.lfsLinks :=
  h.rest .lfsLinks (by simp)

theorem events (h : s.Undisturbed node s') : s'.events = s.events := h.rest .events (by simp)

theorem ownsNamespace (h : s.Undisturbed node s') :
    s'.ownsNamespace node = s.ownsNamespace node := by
  have hreach (steps : Nat) : s'.reachesOwn node steps = s.reachesOwn node steps := by
    induction steps with
    | zero => exact funext fun id => Table.contains_of_rowsOf h.links
    | succ steps ih =>
      refine funext fun id => ?_
      rw [reachesOwn, reachesOwn, h.namespaces, ih, Table.contains_of_rowsOf h.links]
  refine funext fun id => ?_
  rw [Store.ownsNamespace, Store.ownsNamespace, h.namespaces, hreach]

/-- The namespace of a project, asked a question, gives the answer it gave. -/
theorem any_project (h : s.Undisturbed node s') (id : Int) (ask : Int → Bool) :
    (s'.projects.get? id).any (fun p => ask p.namespaceId) =
      (s.projects.get? id).any fun p => ask p.namespaceId := by
  have hnamespace := Numbered.map_get?_congr (g := ProjectRow.namespaceId) h.projects id
  have hask (o : Option ProjectRow) :
      (o.any fun p => ask p.namespaceId) = (o.map ProjectRow.namespaceId).any ask := by
    cases o <;> rfl
  rw [hask, hask, hnamespace]

variable {scope : Scope}

theorem sees (h : s.Undisturbed scope.nodeId s') : s'.sees scope = s.sees scope := by
  refine funext fun id => ?_
  rw [Store.sees, Store.sees, h.ownsNamespace]

theorem projectCount (h : s.Undisturbed scope.nodeId s') :
    s'.projectCount scope = s.projectCount scope := by
  have hcount (s : Store) : s.projectCount scope =
      (s.projects.rows.map fun r => (r.1, r.2.namespaceId)).countP fun r => s.sees scope r.2 := by
    rw [Store.projectCount, visibleProjects, List.countP_map, List.countP_eq_length_filter]
    rfl
  rw [hcount, hcount, h.projects, h.sees]

theorem registryCount (h : s.Undisturbed scope.nodeId s') (part : Part) (state : SyncState) :
    s'.registryCount scope part state = s.registryCount scope part state := by
  have hcount (s : Store) : s.registryCount scope part state =
      (s.registries.rowsOf scope.nodeId).countP fun r => (r.2.part part).state == state.word &&
        (s.projects.get? r.1.2).any fun p => s.sees scope p.namespaceId := by
    rw [Store.registryCount, Table.rowsOf, List.countP_filter, List.countP_eq_length_filter]
    refine congrArg List.length (List.filter_congr fun r _ => ?_)
    cases decide (r.1.1 = scope.nodeId) <;> simp
  rw [hcount, hcount, h.registries]
  refine List.countP_congr fun r _ => ?_
  rw [h.sees, h.any_project]

theorem visibleFiles (h : s.Undisturbed scope.nodeId s') (c : FileClass) :
    s'.visibleFiles scope c = s.visibleFiles scope c := by
  cases c with
  | lfsObjects =>
    have hsees (id : Int) : s'.seesLfsObject scope id = s.seesLfsObject scope id := by
      rw [seesLfsObject, seesLfsObject, h.lfsLinks, h.ownsNamespace]
      simp only [h.any_project _ (s.ownsNamespace scope.nodeId)]
    simp only [Store.visibleFiles, h.lfsObjects, hsees]
  | attachments =>
    have hsees (u : NewUpload) : s'.seesUpload scope u = s.seesUpload scope u := by
      rw [seesUpload, seesUpload, h.ownsNamespace, h.any_project _ (s.ownsNamespace scope.nodeId)]
    simp only [Store.visibleFiles, h.uploads, hsees]

theorem fileCounts (h : s.Undisturbed scope.nodeId s') (c : FileClass) :
    s'.fileCounts scope c = s.fileCounts scope c := by
  have hcopy : s'.hasCopy scope.nodeId c = s.hasCopy scope.nodeId c := by
    refine funext fun id => congrArg c.types.any (funext fun t => ?_)
    exact Table.contains_of_rowsOf (k := (scope.nodeId, t, id)) h.copies
  have hfailure : s'.hasFailure scope.nodeId c = s.hasFailure scope.nodeId c := by
    refine funext fun id => congrArg c.types.any (funext fun t => ?_)
    exact Table.contains_of_rowsOf (k := (scope.nodeId, t, id)) h.failures
  rw [Store.fileCounts, Store.fileCounts, h.visibleFiles, hcopy, hfailure]

end Undisturbed

end Store

/-! ## Operations for another node -/

namespace Call

open GeoReplication.Action

/-- The operation is carried out for the node. -/
def IsFor (node : Int) : Call → Prop
  | recordSyncSuccess nodeId _ _ _ => nodeId = node
  | recordSyncFailure nodeId _ _ _ => nodeId = node
  | requestResync nodeId _ _ => nodeId = node
  | deleteRegistry nodeId _ => nodeId = node
  | recordFileSynced f => f.nodeId = node
  | recordFileFailure nodeId _ _ _ => nodeId = node
  | advanceCursor nodeId _ => nodeId = node
  | updateNode n => n.id = node
  | deleteNode id => id = node
  | _ => False

/-- The operation is carried out for another node, or for none and touches no more of a project than
its size and its dates. -/
def Spares (node : Int) (c : Call) : Prop :=
  (∃ other, node ≠ other ∧ c.IsFor other) ∨ c.OnLeases ∨ c.writes = [] ∨
    (∃ id, c = .expireRepositoryCache id) ∨ ∃ id part time, c = .touchProject id part time

variable {node : Int} {c : Call}

/-- A row of registries of another node is made sure of. -/
theorem undisturbed_ensureRegistry {other : Int} (h : node ≠ other) (now : Instant)
    (projectId : Int) :
    (Store.ensureRegistry now other projectId).Leads (Store.Undisturbed node) := by
  refine leads_statement fun s a s' hrun => ?_
  split at hrun
  · cases hrun
    exact refl_of _ s
  · split at hrun <;> cases hrun
    exact .of_registries (Store.Table.rowsOf_insert h.symm _)

theorem undisturbed_changePart {other : Int} (h : node ≠ other) (projectId : Int) (part : Part)
    (f : PartRow → PartRow) :
    (Store.changePart other projectId part f).Leads (Store.Undisturbed node) := by
  refine leads_statement ?_
  rintro s a s' ⟨⟩
  exact .of_registries (Store.Table.rowsOf_modify h.symm _)

theorem undisturbed_updateNode {n : Node} (h : node ≠ n.id) (now : Instant) (s : Store) :
    s.Undisturbed node ((updateNode n).run now s).2 := by
  rcases settles_updateNode now n s with ⟨e, hrun⟩ | ⟨-, -, old, halters⟩
  · rw [hrun]
    exact refl_of _ s
  have hlinked : ∀ (ids : List Int) (links : Store.Table (Int × Int) Unit),
      (Store.linked links n.id ids).rowsOf node = links.rowsOf node := by
    intro ids
    induction ids with
    | nil => exact fun _ => rfl
    | cons id ids ih => exact fun links => (ih _).trans (Store.Table.rowsOf_insert h.symm ())
  have hrow := halters.get? node
  rw [if_neg h] at hrow
  rw [halters.store] at hrow ⊢
  refine ⟨hrow, rfl, (hlinked _ _).trans (Store.Table.rowsOf_filter_ne h), rfl, rfl, rfl, rfl, ?_⟩
  intro place hplace
  cases place <;> first | rfl | exact absurd hplace (by simp)

/-- **Operations for another node** leave a node alone. -/
theorem undisturbed_run {other : Int} (h : node ≠ other) (hc : c.IsFor other) (now : Instant)
    (s : Store) : s.Undisturbed node (c.run now s).2 := by
  cases c with
  | recordSyncSuccess nodeId projectId part started =>
    obtain rfl : nodeId = other := hc
    exact leads_lift (Leads.transaction ((undisturbed_ensureRegistry h now projectId).bind fun _ =>
      (undisturbed_changePart h projectId part _).bind fun _ => leads_read _)) s
  | recordSyncFailure nodeId projectId part reason =>
    obtain rfl : nodeId = other := hc
    exact leads_lift (Leads.transaction ((undisturbed_ensureRegistry h now projectId).bind fun _ =>
      (undisturbed_changePart h projectId part _).bind fun _ => leads_read _)) s
  | requestResync nodeId projectId part =>
    obtain rfl : nodeId = other := hc
    exact leads_lift (Leads.transaction ((undisturbed_ensureRegistry h now projectId).bind fun _ =>
      undisturbed_changePart h projectId part _)) s
  | deleteRegistry nodeId projectId =>
    obtain rfl : nodeId = other := hc
    exact .of_registries (Store.Table.rowsOf_erase h.symm)
  | recordFileSynced copy =>
    obtain rfl : copy.nodeId = other := hc
    refine leads_lift (leads_statement fun s a s' hrun => ?_) s
    dsimp only at hrun
    split at hrun <;> cases hrun
    refine ⟨rfl, rfl, rfl, rfl, Store.Table.rowsOf_upsert h.symm _ _,
      Store.Table.rowsOf_erase h.symm, rfl, ?_⟩
    intro place hplace
    cases place <;> first | rfl | exact absurd hplace (by simp)
  | recordFileFailure nodeId fileType fileId reason =>
    obtain rfl : nodeId = other := hc
    refine leads_lift (leads_statement fun s a s' hrun => ?_) s
    dsimp only at hrun
    split at hrun <;> cases hrun
    exact ⟨rfl, rfl, rfl, rfl, rfl, Store.Table.rowsOf_upsert h.symm _ _, rfl,
      Store.sameBut_put (p := .failures) (by simp) s _⟩
  | advanceCursor nodeId eventId =>
    obtain rfl : nodeId = other := hc
    refine leads_lift (Leads.bind (leads_statement fun s a s' hrun => ?_) fun _ => leads_read _) s
    dsimp only at hrun
    split at hrun <;> cases hrun
    exact ⟨rfl, (Store.Table.get?_upsert _ _ _ _ _).trans (if_neg h), rfl, rfl, rfl, rfl, rfl,
      Store.sameBut_put (p := .cursors) (by simp) s _⟩
  | updateNode n =>
    obtain rfl : n.id = other := hc
    exact undisturbed_updateNode h now s
  | deleteNode id =>
    obtain rfl : id = other := hc
    refine ⟨(Store.Numbered.get?_erase _ _ _).trans (if_neg h),
      (Store.Table.get?_erase _ _ _).trans (if_neg h), Store.Table.rowsOf_filter_ne h,
      Store.Table.rowsOf_filter_ne h, Store.Table.rowsOf_filter_ne h,
      Store.Table.rowsOf_filter_ne h, rfl, ?_⟩
    intro place hplace
    cases place <;> first | rfl | exact absurd hplace (by simp)
  | _ => exact hc.elim

/-- **Operations that spare a node** leave it alone. -/
theorem Spares.run (hc : c.Spares node) (now : Instant) (s : Store) :
    s.Undisturbed node (c.run now s).2 := by
  rcases hc with ⟨other, h, hc⟩ | hc | hc | ⟨id, rfl⟩ | ⟨id, part, time, rfl⟩
  · exact undisturbed_run h hc now s
  · obtain ⟨leases, hrun⟩ := hc.leases now s
    rw [hrun]
    exact .of_leases
  · rw [run_of_writes_nil hc]
    exact refl_of _ s
  · exact .of_projects fun _ => rfl
  · refine leads_lift (leads_statement fun s a s' hrun => ?_) s
    split at hrun <;> cases hrun
    exact .of_projects fun row => by cases part <;> rfl

end Call

end GeoReplication
