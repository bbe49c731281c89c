import GeoReplication.Proofs.Store.Created
import GeoReplication.Proofs.Text.Cuts

/-!
# Proofs/Store/Distinct — no two rows in each other's way

    nodes:  not two primary, not two at one address
    projects:  not two at one disk path        large objects:  not two with one object id

Each write checks its row against all others, so no two rows that a check keeps apart are ever
there together (`Store.Reached.distinct`).  For nodes that is the check of the write itself; the
look for a primary that comes before it plays no part.
-/

namespace GeoReplication

open GeoReplication.Time

/-! ## Rows that were written for nodes -/

theorem Address.trimmed_trimmed (a : Address) : a.trimmed.trimmed = a.trimmed := by
  have hroot : a.trimmed.trimmedRoot = a.trimmedRoot := by
    rw [trimmedRoot, trimmed, trimmedRoot, String.toList_ofList, Text.trimSlashes,
      Text.trimBoth_trimBoth]
  rw [trimmed, hroot, trimmed]

namespace NodeRow

/-- The row was written for a node: its root is trimmed, and its numbers fit their fields. -/
structure Written (row : NodeRow) : Prop where
  address : ∃ a : Address, row.address = a.trimmed.row
  reposMaxCapacity : ∃ k : UInt32, row.reposMaxCapacity = k.toNat
  filesMaxCapacity : ∃ k : UInt32, row.filesMaxCapacity = k.toNat

theorem written_row (now : Instant) (n : NewNode) : (n.row now).Written :=
  ⟨⟨_, rfl⟩, ⟨_, rfl⟩, ⟨_, rfl⟩⟩

theorem written_rowOver (now : Instant) (n : Node) (old : NodeRow) : (n.rowOver now old).Written :=
  ⟨⟨_, rfl⟩, ⟨_, rfl⟩, ⟨_, rfl⟩⟩

variable {row : NodeRow} {now : Instant} {id : Int} {namespaceIds : List Int} {n : Node}

/-- **A row that was written can be read.** -/
theorem Written.exists_record (h : row.Written) (now : Instant) (id : Int)
    (namespaceIds : List Int) : ∃ n, row.record now id namespaceIds = .ok n := by
  obtain ⟨⟨a, haddress⟩, ⟨repos, hrepos⟩, ⟨files, hfiles⟩⟩ := h
  refine ⟨⟨id, a.trimmed, if row.primary then .primary else .secondary, row.enabled, namespaceIds,
    repos, files, .ofStored now row.createdAt, .ofStored now row.updatedAt⟩, ?_⟩
  exact record_eq_ok_iff.mpr ⟨rfl, haddress, rfl, rfl, rfl, hrepos, hfiles, rfl, rfl⟩

/-- The node that is read from it has a trimmed root. -/
theorem Written.trimmed (h : row.Written) (hholds : row.Holds now id namespaceIds n) :
    n.address.trimmed = n.address := by
  obtain ⟨a, haddress⟩ := h.address
  rw [Address.row_injective (hholds.address.symm.trans haddress), Address.trimmed_trimmed]

end NodeRow

namespace Store

/-! ## Rows of one table -/

namespace Numbered

variable {α : Type} {r : α → α → Prop} {t t' : Numbered α}

/-- No two rows of the table are related. -/
def Apart (r : α → α → Prop) (t : Numbered α) : Prop :=
  ∀ id id' a b, t.get? id = some a → t.get? id' = some b → r a b → id = id'

theorem apart_empty : (empty : Numbered α).Apart r := fun _ _ _ _ h => by cases h

namespace Apart

/-- One row is put in, clear of all others. -/
theorem put (h : t.Apart r) (hsymm : ∀ a b, r a b → r b a) {id : Int} {a : α}
    (hrows : ∀ id', t'.get? id' = if id' = id then some a else t.get? id')
    (hclear : ∀ id' b, t.get? id' = some b → id' ≠ id → ¬ r a b) : t'.Apart r := by
  intro id₁ id₂ a₁ a₂ h₁ h₂ hr
  rw [hrows] at h₁ h₂
  split at h₁ <;> split at h₂
  · next hid₁ hid₂ => exact hid₁.trans hid₂.symm
  · next hid₂ =>
    cases h₁
    exact absurd hr (hclear id₂ a₂ h₂ hid₂)
  · next hid₁ _ =>
    cases h₂
    exact absurd (hsymm _ _ hr) (hclear id₁ a₁ h₁ hid₁)
  · exact h id₁ id₂ a₁ a₂ h₁ h₂ hr

theorem insert (h : t.Apart r) (hsymm : ∀ a b, r a b → r b a) {a : α}
    (hclear : ∀ id b, t.get? id = some b → ¬ r a b) : (t.insert a).Apart r :=
  h.put hsymm (get?_insert t a) fun id b hb _ => hclear id b hb

/-- One row is changed in nothing that matters. -/
theorem modify (h : t.Apart r) {f : α → α} (hf : ∀ a b, (r (f a) b → r a b) ∧ (r a (f b) → r a b))
    (id : Int) : (t.modify id f).Apart r := by
  intro id₁ id₂ a₁ a₂ h₁ h₂ hr
  obtain ⟨b₁, hb₁, heq₁⟩ := get?_of_modify h₁
  obtain ⟨b₂, hb₂, heq₂⟩ := get?_of_modify h₂
  refine h id₁ id₂ b₁ b₂ hb₁ hb₂ ?_
  rcases heq₁ with rfl | rfl <;> rcases heq₂ with rfl | rfl
  · exact (hf _ _).1 ((hf _ _).2 hr)
  · exact (hf _ _).1 hr
  · exact (hf _ _).2 hr
  · exact hr

theorem erase (h : t.Apart r) (id : Int) : (t.erase id).Apart r := by
  intro id₁ id₂ a₁ a₂ h₁ h₂ hr
  rw [get?_erase] at h₁ h₂
  split at h₁ <;> split at h₂
  · cases h₁
  · cases h₁
  · cases h₂
  · exact h id₁ id₂ a₁ a₂ h₁ h₂ hr

/-- No two rows, in the order in which they lie. -/
theorem pairwise (h : t.Apart r) : t.rows.Pairwise fun a b => ¬ r a.2 b.2 := by
  refine (List.pairwise_map.mp t.nodup).imp_of_mem fun ha hb hne hr => hne ?_
  exact h _ _ _ _ (get?_eq_some_iff.mpr ha) (get?_eq_some_iff.mpr hb) hr

end Apart

end Numbered

/-! ## Stores -/

/-- Rows that a check keeps apart are not there together. -/
structure Distinct (s : Store) : Prop where
  nodes : s.nodes.Apart NodeRow.Clashes
  paths : s.projects.Apart fun a b => a.diskPath = b.diskPath
  objects : s.lfsObjects.Apart fun a b => a.oid = b.oid

/-- The rows of nodes were all written for nodes. -/
def NodesWritten (s : Store) : Prop := ∀ id row, s.nodes.get? id = some row → row.Written

variable {s s' : Store} {now : Instant} {c : Call}

/-- **What becomes of the rows of nodes**: nothing, one goes, or one is put in that was written for
a node and has nothing in its way. -/
theorem nodes_after (c : Call) (now : Instant) (s : Store) :
    (c.run now s).2.nodes = s.nodes ∨ (∃ id, (c.run now s).2.nodes = s.nodes.erase id) ∨
      ∃ id row, s.nodeClash id row = none ∧ row.Written ∧
        ∀ id', (c.run now s).2.nodes.get? id' =
          if id' = id then some row else s.nodes.get? id' := by
  by_cases hplace : .nodes ∈ c.writes
  · cases c with
    | createNode n =>
      rcases Call.settles_createNode now n s with ⟨f, hrun⟩ | ⟨-, -, hadds⟩
      · exact .inl (congrArg (fun r => r.2.nodes) hrun)
      · refine .inr (.inr ⟨_, _, hadds.clear, NodeRow.written_row now n, fun id' => ?_⟩)
        rw [hadds.store]
        exact Numbered.get?_insert _ _ id'
    | updateNode n =>
      rcases Call.settles_updateNode now n s with ⟨f, hrun⟩ | ⟨-, -, old, halters⟩
      · exact .inl (congrArg (fun r => r.2.nodes) hrun)
      · exact .inr (.inr ⟨_, _, halters.clear, NodeRow.written_rowOver now n old, halters.get?⟩)
    | deleteNode id => exact .inr (.inl ⟨id, rfl⟩)
    | _ => exact absurd hplace (by simp [Call.writes])
  · exact .inl (c.sameBut_run now s .nodes hplace)

theorem apart_nodes_run (h : s.nodes.Apart NodeRow.Clashes) (now : Instant) (c : Call) :
    (c.run now s).2.nodes.Apart NodeRow.Clashes := by
  rcases nodes_after c now s with hsame | ⟨id, hgone⟩ | ⟨id, row, hclear, -, hrows⟩
  · rwa [hsame]
  · rw [hgone]
    exact h.erase id
  · exact h.put (fun _ _ => .symm) hrows (nodeClash_eq_none_iff.mp hclear)

theorem NodesWritten.run (h : s.NodesWritten) (now : Instant) (c : Call) :
    (c.run now s).2.NodesWritten := by
  intro id row hrow
  rcases nodes_after c now s with hsame | ⟨id', hgone⟩ | ⟨id', row', -, hwritten, hrows⟩
  · exact h id row (hsame ▸ hrow)
  · rw [hgone, Numbered.get?_erase] at hrow
    split at hrow
    · cases hrow
    · exact h id row hrow
  · rw [hrows] at hrow
    split at hrow
    · cases hrow
      exact hwritten
    · exact h id row hrow

/-- **What becomes of the rows of projects**: nothing, one is put in, in a namespace that exists and
with nothing in its way, one goes, or one is changed in neither respect. -/
theorem projects_after (c : Call) (now : Instant) (s : Store) :
    (c.run now s).2.projects = s.projects ∨
    (∃ p : NewProject, s.namespaces.contains p.namespaceId = true ∧
      (∀ id row, s.projects.get? id = some row → row.diskPath ≠ p.diskPath) ∧
      (c.run now s).2.namespaces = s.namespaces ∧
      (c.run now s).2.projects = s.projects.insert (p.row now)) ∨
    (∃ id, (c.run now s).2.projects = s.projects.erase id) ∨
    ∃ id f, (∀ row : ProjectRow, (f row).namespaceId = row.namespaceId ∧
        (f row).diskPath = row.diskPath) ∧
      (c.run now s).2.projects = s.projects.modify id f := by
  by_cases hplace : .projects ∈ c.writes
  · cases c with
    | createProject p =>
      rcases Call.settles_createProject now p s with ⟨f, hrun⟩ | ⟨-, -, hknown, hpath, hstore⟩
      · exact .inl (congrArg (fun r => r.2.projects) hrun)
      · rw [hstore]
        exact .inr (.inl ⟨p, hknown, hpath, rfl, rfl⟩)
    | deleteProject id => exact .inr (.inr (.inl ⟨id, rfl⟩))
    | touchProject id part time =>
      rcases run_touchProject now id part time s with hrun | hrun <;> rw [hrun]
      · exact .inl rfl
      · exact .inr (.inr (.inr ⟨id, _, fun row => by cases part <;> exact ⟨rfl, rfl⟩, rfl⟩))
    | expireRepositoryCache id =>
      exact .inr (.inr (.inr ⟨id, fun row => { row with sizeBytes := none },
        fun _ => ⟨rfl, rfl⟩, rfl⟩))
    | _ => exact absurd hplace (by simp [Call.writes])
  · exact .inl (c.sameBut_run now s .projects hplace)

theorem apart_projects_run (h : s.projects.Apart fun a b => a.diskPath = b.diskPath)
    (now : Instant) (c : Call) :
    (c.run now s).2.projects.Apart fun a b => a.diskPath = b.diskPath := by
  rcases projects_after c now s with hsame | ⟨p, -, hpath, -, hnew⟩ | ⟨id, hgone⟩ |
    ⟨id, f, hf, hchanged⟩
  · rwa [hsame]
  · rw [hnew]
    exact h.insert (fun _ _ => .symm) fun id row hrow hsame => hpath id row hrow hsame.symm
  · rw [hgone]
    exact h.erase id
  · rw [hchanged]
    exact h.modify (fun a b => ⟨(hf a).2.symm.trans, fun hab => hab.trans (hf b).2⟩) id

theorem apart_lfsObjects_run (h : s.lfsObjects.Apart fun a b => a.oid = b.oid)
    (now : Instant) (c : Call) : (c.run now s).2.lfsObjects.Apart fun a b => a.oid = b.oid := by
  by_cases hplace : .lfsObjects ∈ c.writes
  · cases c with
    | createLfsObject oid size =>
      rcases Call.settles_createLfsObject now oid size s with ⟨f, hrun⟩ | ⟨-, -, hoid, hstore⟩
      · rwa [hrun]
      · rw [hstore]
        exact h.insert (fun _ _ => .symm) fun id row hrow hsame => hoid id row hrow hsame.symm
    | _ => exact absurd hplace (by simp [Call.writes])
  · have hsame : (c.run now s).2.lfsObjects = s.lfsObjects :=
      c.sameBut_run now s .lfsObjects hplace
    rwa [hsame]

/-- **Rows stay apart** in every store that operations lead to. -/
theorem Reached.distinct (h : s.Reached) : s.Distinct := by
  induction h with
  | empty => exact ⟨Numbered.apart_empty, Numbered.apart_empty, Numbered.apart_empty⟩
  | call now c _ ih =>
    exact ⟨apart_nodes_run ih.nodes now c, apart_projects_run ih.paths now c,
      apart_lfsObjects_run ih.objects now c⟩

theorem Reached.nodesWritten (h : s.Reached) : s.NodesWritten := by
  induction h with
  | empty => exact fun _ _ h => by cases h
  | call now c _ ih => exact ih.run now c

/-! ## Nodes can be read -/

theorem NodesWritten.exists_nodeOf (h : s.NodesWritten) (now : Instant) {r : Int × NodeRow}
    (hr : r ∈ s.nodes.rows) : ∃ n, s.nodeOf now r = .ok n :=
  (h r.1 r.2 (Numbered.get?_eq_some_iff.mpr hr)).exists_record now r.1 _

theorem NodesWritten.exists_nodeOf? (h : s.NodesWritten) (now : Instant)
    {found : Option (Int × NodeRow)} (hfound : ∀ r, found = some r → r ∈ s.nodes.rows) :
    ∃ o, s.nodeOf? now found = .ok o := by
  cases found with
  | none => exact ⟨none, rfl⟩
  | some r =>
    obtain ⟨n, hn⟩ := h.exists_nodeOf now (hfound r rfl)
    exact ⟨some n, by rw [nodeOf?, hn]; rfl⟩

theorem NodesWritten.exists_readNode (h : s.NodesWritten) (now : Instant) (id : Int) :
    ∃ o, s.readNode now id = .ok o := by
  refine h.exists_nodeOf? now fun r hr => ?_
  obtain ⟨row, hrow, rfl⟩ := Option.map_eq_some_iff.mp hr
  exact Numbered.get?_eq_some_iff.mp hrow

theorem NodesWritten.exists_readPrimary (h : s.NodesWritten) (now : Instant) :
    ∃ o, s.readPrimary now = .ok o :=
  h.exists_nodeOf? now fun _ => List.mem_of_find?_eq_some

/-- The look for a node finds it if it is there, and does not fail. -/
theorem NodesWritten.run_getNode (h : s.NodesWritten) (now : Instant) (id : Int) :
    (Call.getNode id).run now s = (.ok (s.node? now id), s) := by
  obtain ⟨o, ho⟩ := h.exists_readNode now id
  rw [node?, ho]
  exact Call.lift_read_eq_ok_iff.mpr ho

/-- A node that is changed could be read before, and reads as its new fields say. -/
theorem Alters.exists_before (h : s.NodesWritten) {n : Node} {old : NodeRow}
    (halters : Alters now n old s s') (later : Instant) :
    ∃ before, s.node? later n.id = some before ∧
      s'.node? later n.id = some (n.over now later before) := by
  obtain ⟨before, hbefore⟩ :=
    (h n.id old halters.there).exists_record later n.id (s.namespacesOf n.id)
  have hholds := NodeRow.record_eq_ok_iff.mp hbefore
  have hread := readNode_eq_some_iff.mpr ⟨old, halters.there, hholds⟩
  exact ⟨before, node?_eq_some_iff.mpr hread,
    node?_eq_some_iff.mpr (halters.readNode hholds.createdAt)⟩

/-- **All nodes can be listed.** -/
theorem NodesWritten.exists_readNodes (h : s.NodesWritten) (now : Instant) :
    ∃ nodes, s.readNodes now = .ok nodes :=
  exists_mapM_eq_ok fun _ => h.exists_nodeOf now

end Store

end GeoReplication
