import GeoReplication.Proofs.Store.Cursors
import GeoReplication.Proofs.Store.Distinct

/-!
# Proofs/Store/References — rows refer to rows that exist

    namespaces ← namespaces, projects, links          projects ← registries, lfsLinks
    nodes ← links, registries, copies, failures, cursors          lfsObjects ← lfsLinks

A row is written only if what it refers to exists, or is written with it; and what is removed takes
along whatever refers to it.  So nothing ever refers to a number without a row
(`Store.Reached.intact`), and nothing waits for a number that is yet to be handed out.
-/

namespace GeoReplication

open GeoReplication.Time

/-- A column that refers to the rows of a table. -/
inductive Reference where
  /-- a namespace to the one it lies in -/
  | parent
  /-- a project to its namespace -/
  | home
  | linkedNode
  | linkedNamespace
  | registryNode
  | registryProject
  | lfsObject
  | lfsProject
  | copyNode
  | failureNode
  | cursorNode
deriving DecidableEq

namespace Reference

/-- The table with the column. -/
def holder : Reference → Place
  | parent => .namespaces
  | home => .projects
  | linkedNode => .links
  | linkedNamespace => .links
  | registryNode => .registries
  | registryProject => .registries
  | lfsObject => .lfsLinks
  | lfsProject => .lfsLinks
  | copyNode => .copies
  | failureNode => .failures
  | cursorNode => .cursors

/-- The table that is referred to. -/
def target : Reference → Series
  | parent => .namespaces
  | home => .namespaces
  | linkedNode => .nodes
  | linkedNamespace => .namespaces
  | registryNode => .nodes
  | registryProject => .projects
  | lfsObject => .lfsObjects
  | lfsProject => .projects
  | copyNode => .nodes
  | failureNode => .nodes
  | cursorNode => .nodes

end Reference

namespace Store

/-- Some row refers to the number. -/
def Refers (s : Store) : Reference → Int → Prop
  | .parent, id => ∃ child row, s.namespaces.get? child = some row ∧ row.parentId = some id
  | .home, id => ∃ project row, s.projects.get? project = some row ∧ row.namespaceId = id
  | .linkedNode, id => ∃ namespaceId, s.links.contains (id, namespaceId) = true
  | .linkedNamespace, id => ∃ nodeId, s.links.contains (nodeId, id) = true
  | .registryNode, id => ∃ projectId, s.registries.contains (id, projectId) = true
  | .registryProject, id => ∃ nodeId, s.registries.contains (nodeId, id) = true
  | .lfsObject, id => ∃ projectId, s.lfsLinks.contains (id, projectId) = true
  | .lfsProject, id => ∃ lfsObjectId, s.lfsLinks.contains (lfsObjectId, id) = true
  | .copyNode, id => ∃ fileType fileId, s.copies.contains (id, fileType, fileId) = true
  | .failureNode, id => ∃ fileType fileId, s.failures.contains (id, fileType, fileId) = true
  | .cursorNode, id => s.cursors.contains id = true

/-- Rows refer to rows that exist. -/
def Intact (s : Store) : Prop :=
  ∀ r id, s.Refers r id → (s.series r.target).contains id = true

variable {s s' : Store} {now : Instant} {c : Call} {r : Reference} {t : Series} {id : Int}

/-- Who refers to what is said by one table. -/
theorem refers_congr (h : s'.table r.holder = s.table r.holder) :
    s'.Refers r id ↔ s.Refers r id := by
  cases r <;> simp only [Reference.holder, table] at h <;> simp only [Refers, h]

/-! ## What is removed -/

/-- Nothing refers to what was removed. -/
theorem not_refers_of_removed (hc : c.removed? = some (r.target, id)) :
    ¬ (c.run now s).2.Refers r id := by
  cases c with
  | deleteProject project =>
    cases r with
    | registryProject =>
      cases hc
      rintro ⟨nodeId, h⟩
      exact ((Table.contains_filter_ne (f := Prod.snd)).mp h).2 rfl
    | lfsProject =>
      cases hc
      rintro ⟨lfsObjectId, h⟩
      exact ((Table.contains_filter_ne (f := Prod.snd)).mp h).2 rfl
    | _ => cases hc
  | deleteNode node =>
    cases r with
    | linkedNode =>
      cases hc
      rintro ⟨namespaceId, h⟩
      exact ((Table.contains_filter_ne (f := Prod.fst)).mp h).2 rfl
    | registryNode =>
      cases hc
      rintro ⟨projectId, h⟩
      exact ((Table.contains_filter_ne (f := Prod.fst)).mp h).2 rfl
    | copyNode =>
      cases hc
      rintro ⟨fileType, fileId, h⟩
      exact ((Table.contains_filter_ne (f := Prod.fst)).mp h).2 rfl
    | failureNode =>
      cases hc
      rintro ⟨fileType, fileId, h⟩
      exact ((Table.contains_filter_ne (f := Prod.fst)).mp h).2 rfl
    | cursorNode =>
      cases hc
      exact fun h => (Table.contains_erase.mp h).2 rfl
    | _ => cases hc
  | _ => cases hc

/-- A row stays until it is removed. -/
theorem contains_run (hc : c.removed? ≠ some (t, id)) (h : (s.series t).contains id = true) :
    ((c.run now s).2.series t).contains id = true := by
  rcases c.series_after now s t with hsame | ⟨row, -, hnew⟩ | ⟨id', hgone, hrows⟩ |
    ⟨id', f, hchanged⟩
  · rwa [hsame]
  · rw [hnew]
    exact Numbered.contains_insert.mpr (.inl h)
  · rw [hrows]
    refine Numbered.contains_erase.mpr ⟨h, ?_⟩
    rintro rfl
    exact hc hgone
  · rw [hchanged]
    exact Numbered.contains_modify.trans h

/-! ## What is written

For each table, a row that is there after an operation was there before, or what it refers to exists
after it. -/

theorem parent_after {child parent : Int} {row : NamespaceRow}
    (hrow : (c.run now s).2.namespaces.get? child = some row)
    (hparent : row.parentId = some parent) :
    s.Refers .parent parent ∨ (c.run now s).2.namespaces.contains parent = true := by
  by_cases hplace : .namespaces ∈ c.writes
  · cases c with
    | createNamespace name parentId =>
      rcases Call.settles_createNamespace now name parentId s with
        ⟨f, hrun⟩ | ⟨-, -, hknown, hstore⟩
      · exact .inl ⟨child, row, by rwa [hrun] at hrow, hparent⟩
      · rw [hstore] at hrow ⊢
        rw [Numbered.get?_insert] at hrow
        split at hrow
        · cases hrow
          exact .inr (Numbered.contains_insert.mpr (hknown parent hparent).symm)
        · exact .inl ⟨child, row, hrow, hparent⟩
    | _ => exact absurd hplace (by simp [Call.writes])
  · have hsame : (c.run now s).2.namespaces = s.namespaces := c.sameBut_run now s .namespaces hplace
    exact .inl ⟨child, row, hsame ▸ hrow, hparent⟩

theorem home_after {project : Int} {row : ProjectRow}
    (hrow : (c.run now s).2.projects.get? project = some row) :
    s.Refers .home row.namespaceId ∨
      (c.run now s).2.namespaces.contains row.namespaceId = true := by
  rcases projects_after c now s with hsame | ⟨p, hknown, -, hnamespaces, hnew⟩ |
    ⟨id, hgone⟩ | ⟨id, f, hf, hchanged⟩
  · exact .inl ⟨project, row, hsame ▸ hrow, rfl⟩
  · rw [hnew, Numbered.get?_insert] at hrow
    split at hrow
    · cases hrow
      rw [hnamespaces]
      exact .inr hknown
    · exact .inl ⟨project, row, hrow, rfl⟩
  · rw [hgone, Numbered.get?_erase] at hrow
    split at hrow
    · cases hrow
    · exact .inl ⟨project, row, hrow, rfl⟩
  · rw [hchanged] at hrow
    obtain ⟨old, hold, rfl | rfl⟩ := get?_of_modify hrow
    · exact .inl ⟨project, old, hold, (hf old).1.symm⟩
    · exact .inl ⟨project, _, hold, rfl⟩

theorem link_after {key : Int × Int} (h : (c.run now s).2.links.contains key = true) :
    s.links.contains key = true ∨ (c.run now s).2.nodes.contains key.1 = true ∧
      (c.run now s).2.namespaces.contains key.2 = true := by
  by_cases hplace : .links ∈ c.writes
  · cases c with
    | createNode n =>
      rcases Call.settles_createNode now n s with ⟨f, hrun⟩ | ⟨-, -, hadds⟩
      · exact .inl (by rwa [hrun] at h)
      · rw [hadds.store] at h ⊢
        rcases contains_linked.mp h with hthere | ⟨hid, hmem⟩
        · exact .inl hthere
        · rcases hadds.known key.2 hmem with hthere | hknown
          · exact .inl (by rwa [← hid] at hthere)
          · exact .inr ⟨Numbered.contains_insert.mpr (.inr hid), hknown⟩
    | updateNode n =>
      rcases Call.settles_updateNode now n s with ⟨f, hrun⟩ | ⟨-, -, old, halters⟩
      · exact .inl (by rwa [hrun] at h)
      · have hlinks := h
        rw [halters.store] at hlinks ⊢
        rw [contains_relinked] at hlinks
        split at hlinks
        · next hid =>
          refine .inr ⟨?_, halters.known key.2 hlinks⟩
          rw [Numbered.contains_modify, hid, Numbered.contains, halters.there]
          rfl
        · exact .inl hlinks
    | deleteNode id => exact .inl ((Table.contains_filter_ne (f := Prod.fst)).mp h).1
    | _ => exact absurd hplace (by simp [Call.writes])
  · have hsame : (c.run now s).2.links = s.links := c.sameBut_run now s .links hplace
    exact .inl (hsame ▸ h)

theorem settles_linkLfsObject (now : Instant) (lfsObjectId projectId : Int) (s : Store) :
    Call.Settles (fun s' => (s.lfsLinks.contains (lfsObjectId, projectId) = true ∨
        s.lfsObjects.contains lfsObjectId = true ∧ s.projects.contains projectId = true) ∧
      s' = { s with lfsLinks := s.lfsLinks.insert (lfsObjectId, projectId) () }) s
      ((Call.linkLfsObject lfsObjectId projectId).run now s) := by
  refine Call.settles_of_atomic (Action.atomic_statement _) fun _ s' hrun => ?_
  have hlink := Action.run_statement_ok hrun
  split at hlink
  · next hthere =>
    cases hlink
    exact ⟨.inl hthere, by rw [Table.insert_of_contains hthere]⟩
  · split at hlink
    · next hknown =>
      cases hlink
      exact ⟨.inr (Bool.and_eq_true_iff.mp hknown), rfl⟩
    · cases hlink

theorem lfsLink_after {key : Int × Int} (h : (c.run now s).2.lfsLinks.contains key = true) :
    s.lfsLinks.contains key = true ∨ (c.run now s).2.lfsObjects.contains key.1 = true ∧
      (c.run now s).2.projects.contains key.2 = true := by
  by_cases hplace : .lfsLinks ∈ c.writes
  · cases c with
    | linkLfsObject lfsObjectId projectId =>
      rcases settles_linkLfsObject now lfsObjectId projectId s with
        ⟨f, hrun⟩ | ⟨-, -, hknown, hstore⟩
      · exact .inl (by rwa [hrun] at h)
      · rw [hstore] at h ⊢
        rcases Table.contains_insert.mp h with hthere | rfl
        · exact .inl hthere
        · exact hknown
    | deleteProject id => exact .inl ((Table.contains_filter_ne (f := Prod.snd)).mp h).1
    | _ => exact absurd hplace (by simp [Call.writes])
  · have hsame : (c.run now s).2.lfsLinks = s.lfsLinks := c.sameBut_run now s .lfsLinks hplace
    exact .inl (hsame ▸ h)

theorem registry_after {key : Int × Int} (h : (c.run now s).2.registries.contains key = true) :
    s.registries.contains key = true ∨ (c.run now s).2.nodes.contains key.1 = true ∧
      (c.run now s).2.projects.contains key.2 = true := by
  obtain ⟨row, hrow⟩ := Table.contains_iff_exists.mp h
  rcases hc : c.rewrite? now with _ | ⟨key', part, f⟩
  · exact .inl (Table.contains_iff_exists.mpr ⟨row, Call.row_before hc hrow⟩)
  · rcases Call.settles_rewrite (s := s) hc with ⟨e, hrun⟩ | ⟨-, -, hw⟩
    · exact .inl (by rwa [hrun] at h)
    · rw [hw.rows] at hrow
      split at hrow
      · next hkey =>
        rw [hw.rest, hkey]
        exact hw.known
      · exact .inl (Table.contains_iff_exists.mpr ⟨row, hrow⟩)

/-- A copy is written over an earlier one, or its node exists. -/
theorem settles_recordFileSynced (now : Instant) (f : FileCopy) (s : Store) :
    Call.Settles (fun s' => (s.copies.contains (f.nodeId, f.fileType, f.fileId) = true ∨
        s.nodes.contains f.nodeId = true) ∧
      ∃ new change, s' = { s with
        copies := s.copies.upsert (f.nodeId, f.fileType, f.fileId) new change
        failures := s.failures.erase (f.nodeId, f.fileType, f.fileId) }) s
      ((Call.recordFileSynced f).run now s) := by
  refine Call.settles_of_atomic (Action.atomic_statement _) fun _ s' hrun => ?_
  have hwrite := Action.run_statement_ok hrun
  dsimp only at hwrite
  split at hwrite
  · next hknown =>
    cases hwrite
    exact ⟨Bool.or_eq_true_iff.mp hknown, _, _, rfl⟩
  · cases hwrite

/-- A failure is written over an earlier one, or its node exists. -/
theorem settles_recordFileFailure (now : Instant) (nodeId : Int) (fileType : FileType)
    (fileId : Int) (reason : String) (s : Store) :
    Call.Settles (fun s' => (s.failures.contains (nodeId, fileType, fileId) = true ∨
        s.nodes.contains nodeId = true) ∧
      ∃ new change, s' = { s with
        failures := s.failures.upsert (nodeId, fileType, fileId) new change }) s
      ((Call.recordFileFailure nodeId fileType fileId reason).run now s) := by
  refine Call.settles_of_atomic (Action.atomic_statement _) fun _ s' hrun => ?_
  have hwrite := Action.run_statement_ok hrun
  dsimp only at hwrite
  split at hwrite
  · next hknown =>
    cases hwrite
    exact ⟨Bool.or_eq_true_iff.mp hknown, _, _, rfl⟩
  · cases hwrite

theorem copy_after {key : Int × FileType × Int} (h : (c.run now s).2.copies.contains key = true) :
    s.copies.contains key = true ∨ (c.run now s).2.nodes.contains key.1 = true := by
  by_cases hplace : .copies ∈ c.writes
  · cases c with
    | recordFileSynced f =>
      rcases settles_recordFileSynced now f s with ⟨e, hrun⟩ | ⟨-, -, hknown, new, change, hstore⟩
      · exact .inl (by rwa [hrun] at h)
      · rw [hstore] at h ⊢
        rcases Table.contains_upsert.mp h with hthere | rfl
        · exact .inl hthere
        · exact hknown
    | deleteNode id => exact .inl ((Table.contains_filter_ne (f := Prod.fst)).mp h).1
    | _ => exact absurd hplace (by simp [Call.writes])
  · have hsame : (c.run now s).2.copies = s.copies := c.sameBut_run now s .copies hplace
    exact .inl (hsame ▸ h)

theorem failure_after {key : Int × FileType × Int}
    (h : (c.run now s).2.failures.contains key = true) :
    s.failures.contains key = true ∨ (c.run now s).2.nodes.contains key.1 = true := by
  by_cases hplace : .failures ∈ c.writes
  · cases c with
    | recordFileSynced f =>
      rcases settles_recordFileSynced now f s with ⟨e, hrun⟩ | ⟨-, -, -, new, change, hstore⟩
      · exact .inl (by rwa [hrun] at h)
      · rw [hstore] at h
        exact .inl (Table.contains_erase.mp h).1
    | recordFileFailure nodeId fileType fileId reason =>
      rcases settles_recordFileFailure now nodeId fileType fileId reason s with
        ⟨e, hrun⟩ | ⟨-, -, hknown, new, change, hstore⟩
      · exact .inl (by rwa [hrun] at h)
      · rw [hstore] at h ⊢
        rcases Table.contains_upsert.mp h with hthere | rfl
        · exact .inl hthere
        · exact hknown
    | deleteNode id => exact .inl ((Table.contains_filter_ne (f := Prod.fst)).mp h).1
    | _ => exact absurd hplace (by simp [Call.writes])
  · have hsame : (c.run now s).2.failures = s.failures := c.sameBut_run now s .failures hplace
    exact .inl (hsame ▸ h)

theorem cursor_after {nodeId : Int} (h : (c.run now s).2.cursors.contains nodeId = true) :
    s.cursors.contains nodeId = true ∨ (c.run now s).2.nodes.contains nodeId = true := by
  rcases cursor_run c now s nodeId with ⟨-, hsame⟩ | ⟨-, hnone⟩ | ⟨eventId, rfl, hknown, -⟩
  · exact .inl (by rwa [Table.contains, hsame] at h)
  · rw [Table.contains, hnone] at h
    cases h
  · refine (Bool.or_eq_true_iff.mp hknown).imp_right fun hthere => ?_
    exact contains_node_run (by rintro ⟨⟩) now hthere

/-- **Whoever refers to a row** did so before, or the row is there. -/
theorem refers_after (h : (c.run now s).2.Refers r id) :
    s.Refers r id ∨ ((c.run now s).2.series r.target).contains id = true := by
  cases r with
  | parent =>
    obtain ⟨child, row, hrow, hparent⟩ := h
    exact parent_after hrow hparent
  | home =>
    obtain ⟨project, row, hrow, rfl⟩ := h
    exact home_after hrow
  | linkedNode =>
    obtain ⟨namespaceId, h⟩ := h
    exact (link_after h).imp (⟨namespaceId, ·⟩) And.left
  | linkedNamespace =>
    obtain ⟨nodeId, h⟩ := h
    exact (link_after h).imp (⟨nodeId, ·⟩) And.right
  | registryNode =>
    obtain ⟨projectId, h⟩ := h
    exact (registry_after h).imp (⟨projectId, ·⟩) And.left
  | registryProject =>
    obtain ⟨nodeId, h⟩ := h
    exact (registry_after h).imp (⟨nodeId, ·⟩) And.right
  | lfsObject =>
    obtain ⟨projectId, h⟩ := h
    exact (lfsLink_after h).imp (⟨projectId, ·⟩) And.left
  | lfsProject =>
    obtain ⟨lfsObjectId, h⟩ := h
    exact (lfsLink_after h).imp (⟨lfsObjectId, ·⟩) And.right
  | copyNode =>
    obtain ⟨fileType, fileId, h⟩ := h
    exact (copy_after h).imp_left (⟨fileType, fileId, ·⟩)
  | failureNode =>
    obtain ⟨fileType, fileId, h⟩ := h
    exact (failure_after h).imp_left (⟨fileType, fileId, ·⟩)
  | cursorNode => exact cursor_after h

/-! ## Runs of operations -/

theorem Intact.run (h : s.Intact) (now : Instant) (c : Call) : (c.run now s).2.Intact := by
  intro r id hrefers
  rcases refers_after hrefers with hbefore | hthere
  · exact contains_run (fun hc => not_refers_of_removed hc hrefers) (h r id hbefore)
  · exact hthere

/-- **Rows refer to rows that exist** in every store that operations lead to. -/
theorem Reached.intact (h : s.Reached) : s.Intact := by
  induction h with
  | empty =>
    intro r id hrefers
    cases r <;> simp [Refers, Store.empty, Table.contains] at hrefers
  | call now c _ ih => exact ih.run now c

/-! ## New rows -/

/-- Nothing refers to the next number of a table. -/
theorem Intact.not_refers_next (h : s.Intact) : ¬ s.Refers r (s.series r.target).next :=
  fun hrefers => Numbered.not_contains_next (h r _ hrefers)

/-- A new node has nothing but the links it was given. -/
theorem Intact.new_node (h : s.Intact) {n : NewNode} {x : Node}
    (hreply : ((Call.createNode n).run now s).1 = .ok x) :
    (∀ r : Reference, r.target = .nodes → r ≠ .linkedNode →
      ¬ ((Call.createNode n).run now s).2.Refers r x.id) ∧
    ∀ namespaceId, ((Call.createNode n).run now s).2.links.contains (x.id, namespaceId) = true ↔
      namespaceId ∈ n.namespaceIds := by
  have hrun := Call.run_of_lift_ok hreply
  have hid := created_node hrun
  have hlinks := congrArg Store.links (adds_of_createNode hrun).1.store
  change ((Call.createNode n).run now s).2.links = _ at hlinks
  constructor
  · intro r htarget hother hrefers
    have hholder : r.holder ∉ (Call.createNode n).writes := by
      cases r <;> simp_all [Reference.target, Reference.holder, Call.writes]
    rw [refers_congr (Call.sameBut_run _ now s _ hholder), hid] at hrefers
    refine h.not_refers_next (r := r) ?_
    rwa [htarget]
  · intro namespaceId
    rw [hlinks, contains_linked, hid, or_iff_right fun hthere => ?_]
    · exact and_iff_right rfl
    · exact h.not_refers_next (r := .linkedNode) ⟨namespaceId, hthere⟩

/-- A new project has nothing. -/
theorem Intact.new_project (h : s.Intact) {p : NewProject} {x : Project}
    (hreply : ((Call.createProject p).run now s).1 = .ok x) (r : Reference)
    (htarget : r.target = .projects) : ¬ ((Call.createProject p).run now s).2.Refers r x.id := by
  intro hrefers
  obtain ⟨-, -, hid, -⟩ := created_project (Call.run_of_lift_ok hreply)
  have hholder : r.holder ∉ (Call.createProject p).writes := by
    cases r <;> simp_all [Reference.target, Reference.holder, Call.writes]
  rw [refers_congr (Call.sameBut_run _ now s _ hholder), hid] at hrefers
  refine h.not_refers_next (r := r) ?_
  rwa [htarget]

/-- No key is taken twice, nor a value of a column without repetitions. -/
structure Keyed (s : Store) : Prop where
  numbers : ∀ t, ((s.series t).rows.map Prod.fst).Nodup
  links : (s.links.rows.map Prod.fst).Nodup
  registries : (s.registries.rows.map Prod.fst).Nodup
  lfsLinks : (s.lfsLinks.rows.map Prod.fst).Nodup
  copies : (s.copies.rows.map Prod.fst).Nodup
  failures : (s.failures.rows.map Prod.fst).Nodup
  cursors : (s.cursors.rows.map Prod.fst).Nodup
  leases : (s.leases.rows.map Prod.fst).Nodup
  paths : (s.projects.rows.map fun r => r.2.diskPath).Nodup
  addresses : (s.nodes.rows.map fun r => r.2.address).Nodup
  oids : (s.lfsObjects.rows.map fun r => r.2.oid).Nodup

theorem Reached.keyed (h : s.Reached) : s.Keyed where
  numbers t := (s.series t).nodup
  links := s.links.nodup
  registries := s.registries.nodup
  lfsLinks := s.lfsLinks.nodup
  copies := s.copies.nodup
  failures := s.failures.nodup
  cursors := s.cursors.nodup
  leases := s.leases.nodup
  paths := List.pairwise_map.mpr h.distinct.paths.pairwise
  addresses := List.pairwise_map.mpr (h.distinct.nodes.pairwise.imp fun hapart hsame =>
    hapart (.inr hsame))
  oids := List.pairwise_map.mpr h.distinct.objects.pairwise

/-- **Rows hang together**, whatever was done and whatever failed.  Rows refer to rows that exist,
no key is taken twice, and the numbers of a table are handed out upwards, each once; so a new node
or project has nothing that was left by another. -/
theorem Past.hangs_together {deeds : List Deed} (h : Past deeds s) :
    s.Intact ∧ s.Keyed ∧
    (∀ t, (Deed.numbers t deeds).Pairwise (· > ·) ∧
      ∀ id, (s.series t).contains id = true → id ∈ Deed.numbers t deeds) ∧
    (∀ now n x, ((Call.createNode n).run now s).1 = .ok x →
      x.id ∉ Deed.numbers .nodes deeds ∧
      (∀ r : Reference, r.target = .nodes → r ≠ .linkedNode →
        ¬ ((Call.createNode n).run now s).2.Refers r x.id) ∧
      ∀ namespaceId, ((Call.createNode n).run now s).2.links.contains (x.id, namespaceId) = true ↔
        namespaceId ∈ n.namespaceIds) ∧
    ∀ now p x, ((Call.createProject p).run now s).1 = .ok x →
      x.id ∉ Deed.numbers .projects deeds ∧
      ∀ r : Reference, r.target = .projects →
        ¬ ((Call.createProject p).run now s).2.Refers r x.id := by
  have hintact := h.reached.intact
  refine ⟨hintact, h.reached.keyed, fun t => ⟨h.numbers_pairwise t, fun _ => ?_⟩, ?_, ?_⟩
  · exact h.mem_numbers_of_contains
  · intro now n x hreply
    refine ⟨?_, hintact.new_node hreply⟩
    rw [created_node (Call.run_of_lift_ok hreply)]
    exact h.next_notMem_numbers (t := .nodes)
  · intro now p x hreply
    refine ⟨?_, hintact.new_project hreply⟩
    rw [(created_project (Call.run_of_lift_ok hreply)).2.2.1]
    exact h.next_notMem_numbers (t := .projects)

/-- A node is removed with its registry and its cursor; the next one fails halfway, and the one
after that begins with nothing. -/
theorem hangs_together_after_removal : ∃ deeds s x, Past deeds s ∧
    Deed.numbers .nodes deeds = [1] ∧ s.nodes.contains 1 = false ∧ s.Intact ∧
    ((Call.createNode ⟨⟨"http", "third", 80, ""⟩, .secondary, true, [1], 1, 1⟩).run .epoch s).1 =
      .ok x ∧
    x.id ∉ Deed.numbers .nodes deeds ∧
    ¬ ((Call.createNode ⟨⟨"http", "third", 80, ""⟩, .secondary, true, [1], 1, 1⟩).run
      .epoch s).2.Refers .registryNode x.id := by
  have hplaces := ((Past.empty.call .epoch (.createNamespace "group" none)).call .epoch
    (.createNode ⟨⟨"http", "second", 80, ""⟩, .secondary, true, [1], 1, 1⟩)).call .epoch
    (.createProject ⟨1, "p", "group/p", "default", false, none⟩)
  have hrows := (hplaces.call .epoch (.recordSyncFailure 1 1 .repository "refused")).call .epoch
    (.advanceCursor 1 0)
  have hgone := (hrows.call .epoch (.deleteNode 1)).call .epoch
    (.createNode ⟨⟨"http", "third", 80, ""⟩, .secondary, true, [1, 7], 1, 1⟩)
  obtain ⟨hintact, -, -, hnodes, -⟩ := hgone.hangs_together
  obtain ⟨hnew, hnothing, -⟩ := hnodes .epoch
    ⟨⟨"http", "third", 80, ""⟩, .secondary, true, [1], 1, 1⟩ _ rfl
  exact ⟨_, _, _, hgone, rfl, rfl, hintact, rfl, hnew, hnothing .registryNode rfl (by decide)⟩

end Store

end GeoReplication
