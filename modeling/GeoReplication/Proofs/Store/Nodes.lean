import GeoReplication.Proofs.Store.Atomic
import GeoReplication.Proofs.Store.Keys
import GeoReplication.Proofs.Store.Registries
import Mathlib.Data.List.Dedup
import Mathlib.Data.List.Sort

/-!
# Proofs/Store/Nodes — what becomes of nodes that are written

A new node gets the next number, its row, and links to its namespaces (`Store.Adds`).  A changed
node keeps its number and the time when it was created, and its links are replaced
(`Store.Alters`).  Whatever fails on the way leaves the store as it was.

A row is read as the one node it holds, if its numbers fit their fields
(`NodeRow.record_eq_ok_iff`); those of a row that was written for a node do.
-/

namespace GeoReplication

open GeoReplication.Time

/-- The row of a new node. -/
def NewNode.row (now : Instant) (n : NewNode) : NodeRow where
  address := n.address.trimmed.row
  primary := n.role = .primary
  enabled := n.enabled
  reposMaxCapacity := n.reposMaxCapacity.toNat
  filesMaxCapacity := n.filesMaxCapacity.toNat
  createdAt := now.stored
  updatedAt := now.stored

/-- The row of a node with the fields of `n`. -/
def Node.rowOver (now : Instant) (n : Node) (old : NodeRow) : NodeRow :=
  { old with
    address := n.address.trimmed.row
    primary := n.isPrimary
    enabled := n.enabled
    reposMaxCapacity := n.reposMaxCapacity.toNat
    filesMaxCapacity := n.filesMaxCapacity.toNat
    updatedAt := now.stored }

/-- The node that is read at `later`, after the node `before` got the fields of `n`. -/
def Node.over (now later : Instant) (n before : Node) : Node :=
  { n with
    address := n.address.trimmed
    namespaceIds := n.namespaceIds.dedup.mergeSort (· ≤ ·)
    createdAt := before.createdAt
    updatedAt := .ofStored later now.stored }

/-- The rows cannot both be there: both are primary, or they have one address. -/
def NodeRow.Clashes (row row' : NodeRow) : Prop :=
  row.primary = true ∧ row'.primary = true ∨ row.address = row'.address

theorem NodeRow.Clashes.symm {row row' : NodeRow} (h : row.Clashes row') : row'.Clashes row :=
  h.imp And.symm Eq.symm

/-! ## Rows as they are read -/

theorem Address.row_injective {a b : Address} (h : a.row = b.row) : a = b := by
  obtain ⟨scheme, host, port, root⟩ := a
  obtain ⟨scheme', host', port', root'⟩ := b
  simp only [row, AddressRow.mk.injEq, Int.natCast_inj, UInt16.toNat_inj] at h
  obtain ⟨rfl, rfl, rfl, rfl⟩ := h
  rfl

namespace NodeRow

variable {row : NodeRow} {now : Instant} {id : Int} {namespaceIds : List Int} {n : Node}

/-- The row is that of the node. -/
structure Holds (now : Instant) (id : Int) (namespaceIds : List Int) (row : NodeRow) (n : Node) :
    Prop where
  id : n.id = id
  address : row.address = n.address.row
  role : n.role = if row.primary then .primary else .secondary
  enabled : n.enabled = row.enabled
  namespaceIds : n.namespaceIds = namespaceIds
  reposMaxCapacity : row.reposMaxCapacity = n.reposMaxCapacity.toNat
  filesMaxCapacity : row.filesMaxCapacity = n.filesMaxCapacity.toNat
  createdAt : n.createdAt = .ofStored now row.createdAt
  updatedAt : n.updatedAt = .ofStored now row.updatedAt

/-- The row of a primary says so. -/
theorem Holds.isPrimary_eq (h : row.Holds now id namespaceIds n) : n.isPrimary = row.primary := by
  rw [Node.isPrimary, h.role]
  cases row.primary <;> rfl

/-- At two times a row holds the same node, but for what stands in place of times that are none. -/
theorem Holds.eq_but_times {now' : Instant} {n' : Node} (h : row.Holds now id namespaceIds n)
    (h' : row.Holds now' id namespaceIds n') :
    n' = { n with createdAt := n'.createdAt, updatedAt := n'.updatedAt } := by
  have haddress := Address.row_injective (h'.address.symm.trans h.address)
  have hrepos := h'.reposMaxCapacity.symm.trans h.reposMaxCapacity
  have hfiles := h'.filesMaxCapacity.symm.trans h.filesMaxCapacity
  rw [Int.natCast_inj, UInt32.toNat_inj] at hrepos hfiles
  rw [h.id, h.role, h.enabled, h.namespaceIds, ← haddress, ← hrepos, ← hfiles, ← h'.id, ← h'.role,
    ← h'.enabled, ← h'.namespaceIds]

/-- A number that is read as a port is that of one port. -/
theorem readNumber_port_iff {column : Nat} {number k : Int} {port : UInt16} :
    (readNumber column 0 Address.maxPort number = .ok k ∧ port = .ofNat k.toNat) ↔
      number = k ∧ number = port.toNat := by
  rw [readNumber_eq_ok_iff, Address.maxPort]
  constructor
  · rintro ⟨⟨⟨hmin, hmax⟩, rfl⟩, rfl⟩
    rw [UInt16.toNat_ofNat']
    omega
  · rintro ⟨rfl, rfl⟩
    have hport := port.toNat_lt
    exact ⟨⟨by omega, rfl⟩, by rw [Int.toNat_natCast, UInt16.ofNat_toNat]⟩

/-- A number that is read as a capacity is that of one capacity. -/
theorem readNumber_capacity_iff {column : Nat} {number k : Int} {capacity : UInt32} :
    (readNumber column 0 Node.maxCapacity number = .ok k ∧ capacity = .ofNat k.toNat) ↔
      number = k ∧ number = capacity.toNat := by
  rw [readNumber_eq_ok_iff, Node.maxCapacity]
  constructor
  · rintro ⟨⟨⟨hmin, hmax⟩, rfl⟩, rfl⟩
    rw [UInt32.toNat_ofNat']
    omega
  · rintro ⟨rfl, rfl⟩
    have hcapacity := capacity.toNat_lt
    exact ⟨⟨by omega, rfl⟩, by rw [Int.toNat_natCast, UInt32.ofNat_toNat]⟩

/-- **What a row is read as**: the node that it holds, and nothing else. -/
theorem record_eq_ok_iff :
    row.record now id namespaceIds = .ok n ↔ row.Holds now id namespaceIds n := by
  rw [record]
  constructor
  · intro h
    obtain ⟨port, hport, h⟩ := bind_eq_ok_iff.mp h
    obtain ⟨repos, hrepos, h⟩ := bind_eq_ok_iff.mp h
    obtain ⟨files, hfiles, h⟩ := bind_eq_ok_iff.mp h
    obtain rfl := Except.ok.inj h
    have haddress := (readNumber_port_iff.mp ⟨hport, rfl⟩).2
    refine ⟨rfl, ?_, rfl, rfl, rfl, (readNumber_capacity_iff.mp ⟨hrepos, rfl⟩).2,
      (readNumber_capacity_iff.mp ⟨hfiles, rfl⟩).2, rfl, rfl⟩
    rw [Address.row, ← haddress]
  · rintro ⟨hid, haddress, hrole, henabled, hids, hrepos, hfiles, hcreated, hupdated⟩
    obtain ⟨hport, hp⟩ := readNumber_port_iff.mpr ⟨rfl, congrArg AddressRow.port haddress⟩
    obtain ⟨hrepos, hr⟩ := readNumber_capacity_iff.mpr ⟨rfl, hrepos⟩
    obtain ⟨hfiles, hf⟩ := readNumber_capacity_iff.mpr ⟨rfl, hfiles⟩
    refine bind_eq_ok_iff.mpr ⟨_, hport, bind_eq_ok_iff.mpr ⟨_, hrepos,
      bind_eq_ok_iff.mpr ⟨_, hfiles, congrArg Except.ok ?_⟩⟩⟩
    rw [← hp, ← hr, ← hf, haddress, ← hrole, ← henabled, ← hids, ← hid, ← hcreated, ← hupdated]
    rfl

end NodeRow

namespace Store

open GeoReplication.Action

variable {s s' : Store} {now : Instant} {nodeId : Int}

/-! ## Links -/

/-- Links of a node to namespaces more. -/
def linked (links : Table (Int × Int) Unit) (nodeId : Int) (ids : List Int) :
    Table (Int × Int) Unit := ids.foldl (fun links id => links.insert (nodeId, id) ()) links

/-- The links with those of one node replaced. -/
def relinked (s : Store) (nodeId : Int) (ids : List Int) : Table (Int × Int) Unit :=
  linked (s.links.filter fun (node, _) _ => node ≠ nodeId) nodeId ids

theorem contains_linked {key : Int × Int} :
    ∀ {ids : List Int} {links : Table (Int × Int) Unit},
      (linked links nodeId ids).contains key = true ↔
        links.contains key = true ∨ key.1 = nodeId ∧ key.2 ∈ ids
  | [], links => by simp [linked]
  | id :: ids, links => by
      rw [linked, List.foldl_cons, ← linked, contains_linked, Table.contains_insert, Prod.ext_iff,
        List.mem_cons]
      tauto

theorem contains_relinked {ids : List Int} {key : Int × Int} :
    (s.relinked nodeId ids).contains key = true ↔
      if key.1 = nodeId then key.2 ∈ ids else s.links.contains key = true := by
  rw [relinked, contains_linked,
    Table.contains_filter (p := fun key : Int × Int => decide (key.1 ≠ nodeId)), decide_eq_true_iff]
  split <;> simp_all

/-- A namespace that was linked exists, unless it was linked before. -/
theorem run_linkNamespace {id : Int} (h : (linkNamespace nodeId id).run s = (.ok (), s')) :
    s' = { s with links := s.links.insert (nodeId, id) () } ∧
      (s.links.contains (nodeId, id) = true ∨ s.namespaces.contains id = true) := by
  have hlink := run_statement_ok h
  split at hlink
  · next hthere =>
    cases hlink
    exact ⟨by rw [Table.insert_of_contains hthere], .inl hthere⟩
  · split at hlink
    · next hexist =>
      cases hlink
      exact ⟨rfl, .inr (Bool.and_eq_true_iff.mp hexist).2⟩
    · cases hlink

theorem run_linkNamespaces :
    ∀ {ids : List Int} {s : Store}, (linkNamespaces nodeId ids).run s = (.ok (), s') →
      s' = { s with links := linked s.links nodeId ids } ∧
        ∀ id ∈ ids, s.links.contains (nodeId, id) = true ∨ s.namespaces.contains id = true
  | [], s, h => by
      cases h
      exact ⟨rfl, fun id hid => absurd hid List.not_mem_nil⟩
  | id :: ids, s, h => by
      obtain ⟨_, s₁, hfirst, hrest⟩ := run_bind_ok h
      obtain ⟨rfl, hid⟩ := run_linkNamespace hfirst
      obtain ⟨hstore, hknown⟩ := run_linkNamespaces hrest
      refine ⟨hstore, List.forall_mem_cons.mpr ⟨hid, fun id' hid' => ?_⟩⟩
      rcases hknown id' hid' with hlinked | hknown
      · rcases Table.contains_insert.mp hlinked with hthere | hsame
        · exact .inl hthere
        · exact (Prod.mk.inj hsame).2 ▸ hid
      · exact .inr hknown

/-! ## Rows -/

theorem nodeClash_eq_none_iff {id : Int} {row : NodeRow} :
    s.nodeClash id row = none ↔
      ∀ id' row', s.nodes.get? id' = some row' → id' ≠ id → ¬ row.Clashes row' := by
  have hothers : (∀ id' row', s.nodes.get? id' = some row' → id' ≠ id → ¬ row.Clashes row') ↔
      ∀ r ∈ s.nodes.rows.filter fun r => r.1 ≠ id, ¬ row.Clashes r.2 := by
    simp only [Numbered.get?_eq_some_iff, List.mem_filter, decide_eq_true_iff, Prod.forall, and_imp]
  rw [hothers, nodeClash]
  constructor
  · intro h r hr hclash
    split at h
    · cases h
    · next hprimary =>
      split at h
      · cases h
      · next haddress =>
        rcases hclash with ⟨hrow, hother⟩ | hsame
        · exact hprimary (Bool.and_eq_true_iff.mpr ⟨hrow, List.any_eq_true.mpr ⟨r, hr, hother⟩⟩)
        · exact haddress (List.any_eq_true.mpr ⟨r, hr, decide_eq_true hsame.symm⟩)
  · intro h
    rw [if_neg, if_neg]
    · rw [List.any_eq_true]
      rintro ⟨r, hr, hsame⟩
      exact h r hr (.inr (of_decide_eq_true hsame).symm)
    · rw [Bool.and_eq_true_iff, List.any_eq_true]
      rintro ⟨hrow, r, hr, hother⟩
      exact h r hr (.inl ⟨hrow, hother⟩)

/-- A second primary is told apart from a second node at an address. -/
theorem nodeClash_of_primary {id id' : Int} {row row' : NodeRow} (hrow : row.primary = true)
    (hother : s.nodes.get? id' = some row') (hid : id' ≠ id) (hprimary : row'.primary = true) :
    s.nodeClash id row = some .secondPrimary := by
  refine if_pos (Bool.and_eq_true_iff.mpr ⟨hrow, List.any_eq_true.mpr ⟨(id', row'), ?_, hprimary⟩⟩)
  exact List.mem_filter.mpr ⟨Numbered.get?_eq_some_iff.mp hother, decide_eq_true hid⟩

/-- A node has been added. -/
structure Adds (now : Instant) (n : NewNode) (s s' : Store) : Prop where
  clear : s.nodeClash s.nodes.next (n.row now) = none
  known : ∀ id ∈ n.namespaceIds,
    s.links.contains (s.nodes.next, id) = true ∨ s.namespaces.contains id = true
  store : s' = { s with
    nodes := s.nodes.insert (n.row now)
    links := linked s.links s.nodes.next n.namespaceIds }

/-- A node has been changed. -/
structure Alters (now : Instant) (n : Node) (old : NodeRow) (s s' : Store) : Prop where
  there : s.nodes.get? n.id = some old
  clear : s.nodeClash n.id (n.rowOver now old) = none
  known : ∀ id ∈ n.namespaceIds, s.namespaces.contains id = true
  store : s' = { s with
    nodes := s.nodes.modify n.id fun _ => n.rowOver now old
    links := s.relinked n.id n.namespaceIds }

theorem Alters.get? {n : Node} {old : NodeRow} (h : Alters now n old s s') (id : Int) :
    s'.nodes.get? id = if id = n.id then some (n.rowOver now old) else s.nodes.get? id := by
  rw [h.store, Numbered.get?_modify]
  split
  · next hid => rw [hid, h.there, Option.map_some]
  · rfl

/-- The write of a new node that succeeds adds it, and answers the node. -/
theorem adds_of_insertNode {n : NewNode} {node : Node}
    (h : (insertNode now n).run s = (.ok node, s')) :
    Adds now n s s' ∧ s'.readNode now s.nodes.next = .ok (some node) := by
  obtain ⟨id, s₁, hrow, hrest⟩ := run_bind_ok (run_transaction_ok h)
  obtain ⟨_, s₂, hlinks, hread⟩ := run_bind_ok hrest
  have hinsert := run_statement_ok hrow
  split at hinsert
  · cases hinsert
  · next hclear =>
    cases hinsert
    obtain ⟨rfl, hknown⟩ := run_linkNamespaces hlinks
    rw [run_read] at hread
    split at hread
    · next hnode =>
      cases hread
      exact ⟨⟨hclear, hknown, rfl⟩, hnode⟩
    · cases hread
    · cases hread

theorem run_insertNode_of_clash {n : NewNode} {e : Error}
    (h : s.nodeClash s.nodes.next (n.row now) = some e) :
    (insertNode now n).run s = (.error e, s) := by
  rw [NewNode.row] at h
  simp only [insertNode, insertNodeRow, run_transaction, run_bind, run_statement, h]

theorem run_replaceNode_of_clash {n : Node} {old : NodeRow} {e : Error}
    (hold : s.nodes.get? n.id = some old) (h : s.nodeClash n.id (n.rowOver now old) = some e) :
    (replaceNode now n).run s = (.error e, s) := by
  rw [Node.rowOver] at h
  simp only [replaceNode, updateNodeRow, run_transaction, run_bind, run_statement, hold, h]

theorem run_replaceNode_of_missing {n : Node} (h : s.nodes.get? n.id = none) :
    (replaceNode now n).run s = (.error .notFound, s) := by
  simp only [replaceNode, updateNodeRow, run_transaction, run_bind, run_statement, h]

/-- The write of a changed node that succeeds changes it. -/
theorem alters_of_replaceNode {n : Node} (h : (replaceNode now n).run s = (.ok (), s')) :
    ∃ old, Alters now n old s s' := by
  obtain ⟨_, s₁, hrow, hrest⟩ := run_bind_ok (run_transaction_ok h)
  obtain ⟨_, s₂, hunlink, hlinks⟩ := run_bind_ok hrest
  cases run_statement_ok hunlink
  obtain ⟨hstore, hknown⟩ := run_linkNamespaces hlinks
  have hupdate := run_statement_ok hrow
  dsimp only at hupdate
  split at hupdate
  · cases hupdate
  · next old hold =>
    split at hupdate
    · cases hupdate
    · next hclear =>
      cases hupdate
      refine ⟨old, hold, hclear, fun id hid => (hknown id hid).resolve_left ?_, hstore⟩
      exact fun hlinked => ((Table.contains_filter_ne (f := Prod.fst)).mp hlinked).2 rfl

/-! ## Nodes as they are read -/

theorem nodeOf?_eq_some_iff {r : Option (Int × NodeRow)} {node : Node} :
    s.nodeOf? now r = .ok (some node) ↔
      ∃ id row, r = some (id, row) ∧ row.Holds now id (s.namespacesOf id) node := by
  have hread (r : Int × NodeRow) : s.nodeOf? now (some r) = .ok (some node) ↔
      r.2.Holds now r.1 (s.namespacesOf r.1) node := by
    rw [nodeOf?, ← NodeRow.record_eq_ok_iff, nodeOf]
    cases r.2.record now r.1 (s.namespacesOf r.1) <;> simp [Except.map]
  constructor
  · intro h
    rcases r with _ | ⟨id, row⟩
    · cases h
    · exact ⟨id, row, rfl, (hread _).mp h⟩
  · rintro ⟨id, row, rfl, hholds⟩
    exact (hread _).mpr hholds

/-- A list is read if each of its items is. -/
theorem mapM_eq_ok_iff {α β : Type} {f : α → Except Error β} : ∀ {as : List α} {bs : List β},
    as.mapM f = .ok bs ↔ List.Forall₂ (fun a b => f a = .ok b) as bs
  | [], bs => by
      rw [List.mapM_nil, List.forall₂_nil_left_iff]
      exact ⟨fun h => (Except.ok.inj h).symm, fun h => congrArg Except.ok h.symm⟩
  | a :: as, bs => by
      rw [List.mapM_cons, bind_eq_ok_iff, List.forall₂_cons_left_iff]
      constructor
      · rintro ⟨b, hb, h⟩
        obtain ⟨bs', hbs, h⟩ := bind_eq_ok_iff.mp h
        exact ⟨b, bs', hb, mapM_eq_ok_iff.mp hbs, (Except.ok.inj h).symm⟩
      · rintro ⟨b, bs', hb, hbs, rfl⟩
        exact ⟨b, hb, bind_eq_ok_iff.mpr ⟨bs', mapM_eq_ok_iff.mpr hbs, rfl⟩⟩

theorem exists_mapM_eq_ok {α β : Type} {f : α → Except Error β} : ∀ {as : List α},
    (∀ a ∈ as, ∃ b, f a = .ok b) → ∃ bs, as.mapM f = .ok bs
  | [], _ => ⟨[], rfl⟩
  | a :: as, h => by
      obtain ⟨b, hb⟩ := h a List.mem_cons_self
      obtain ⟨bs, hbs⟩ := exists_mapM_eq_ok fun a' ha => h a' (List.mem_cons_of_mem a ha)
      exact ⟨b :: bs, mapM_eq_ok_iff.mpr (.cons hb (mapM_eq_ok_iff.mp hbs))⟩

theorem mapM_congr {α β : Type} {f g : α → Except Error β} : ∀ {as : List α},
    (∀ a ∈ as, f a = g a) → as.mapM f = as.mapM g
  | [], _ => rfl
  | a :: as, h => by
      rw [List.mapM_cons, List.mapM_cons, h a List.mem_cons_self,
        mapM_congr fun a' ha => h a' (List.mem_cons_of_mem a ha)]

/-- **A node is read** if there is a row with its number that holds it. -/
theorem readNode_eq_some_iff {id : Int} {node : Node} :
    s.readNode now id = .ok (some node) ↔
      ∃ row, s.nodes.get? id = some row ∧ row.Holds now id (s.namespacesOf id) node := by
  rw [readNode, nodeOf?_eq_some_iff]
  constructor
  · rintro ⟨_, row, hrow, hholds⟩
    obtain ⟨row', hthere, heq⟩ := Option.map_eq_some_iff.mp hrow
    cases heq
    exact ⟨row, hthere, hholds⟩
  · rintro ⟨row, hthere, hholds⟩
    exact ⟨id, row, by rw [hthere, Option.map_some], hholds⟩

theorem node?_eq_some_iff {id : Int} {node : Node} :
    s.node? now id = some node ↔ s.readNode now id = .ok (some node) := by
  rw [node?]
  rcases s.readNode now id with e | _ | node' <;> simp [Except.toOption]

/-- A node that is read has a row. -/
theorem row_of_node? {id : Int} {node : Node} (h : s.node? now id = some node) :
    ∃ row, s.nodes.get? id = some row ∧ row.Holds now id (s.namespacesOf id) node :=
  readNode_eq_some_iff.mp (node?_eq_some_iff.mp h)

/-- The primary that is found has a row that says so. -/
theorem row_of_readPrimary {node : Node} (h : s.readPrimary now = .ok (some node)) :
    ∃ row, s.nodes.get? node.id = some row ∧ row.primary = true := by
  obtain ⟨id, row, hfind, hholds⟩ := nodeOf?_eq_some_iff.mp h
  have hrow := Numbered.get?_eq_some_iff.mpr (List.mem_of_find?_eq_some hfind)
  have hprimary := List.find?_some hfind
  exact ⟨row, hholds.id ▸ hrow, hprimary⟩

theorem mem_namespacesOf {id : Int} : id ∈ s.namespacesOf nodeId ↔
    s.links.contains (nodeId, id) = true := by
  rw [namespacesOf, List.mem_mergeSort, Table.contains_iff]
  simp only [List.mem_map, List.mem_filter, decide_eq_true_iff]
  constructor
  · rintro ⟨r, ⟨hr, rfl⟩, rfl⟩
    exact ⟨r, hr, rfl⟩
  · rintro ⟨r, hr, hkey⟩
    exact ⟨r, ⟨hr, congrArg Prod.fst hkey⟩, congrArg Prod.snd hkey⟩

theorem pairwise_mergeSort_of_nodup {ids : List Int} (h : ids.Nodup) :
    (ids.mergeSort (· ≤ ·)).Pairwise (· < ·) := by
  have hsorted := List.pairwise_mergeSort' (· ≤ ·) ids
  have hnodup := (List.mergeSort_perm ids (· ≤ ·)).nodup_iff.mpr h
  exact hsorted.imp₂ (fun _ _ hle hne => lt_of_le_of_ne hle hne) hnodup

theorem namespacesOf_pairwise (s : Store) (nodeId : Int) :
    (s.namespacesOf nodeId).Pairwise (· < ·) := by
  refine pairwise_mergeSort_of_nodup (List.pairwise_map.mpr ?_)
  have hkeys := (List.pairwise_map.mp s.links.nodup).filter fun r => r.1.1 = nodeId
  refine hkeys.imp_of_mem fun ha hb hne hsame => hne (Prod.ext ?_ hsame)
  rw [of_decide_eq_true (List.mem_filter.mp ha).2, of_decide_eq_true (List.mem_filter.mp hb).2]

theorem namespacesOf_eq {ids : List Int}
    (h : ∀ id, s.links.contains (nodeId, id) = true ↔ id ∈ ids) :
    s.namespacesOf nodeId = ids.dedup.mergeSort (· ≤ ·) :=
  (s.namespacesOf_pairwise nodeId).eq_of_mem_iff (pairwise_mergeSort_of_nodup ids.nodup_dedup)
    fun id => by rw [mem_namespacesOf, h, List.mem_mergeSort, List.mem_dedup]

theorem namespacesOf_congr
    (h : ∀ id, s'.links.contains (nodeId, id) = true ↔ s.links.contains (nodeId, id) = true) :
    s'.namespacesOf nodeId = s.namespacesOf nodeId :=
  (s'.namespacesOf_pairwise nodeId).eq_of_mem_iff (s.namespacesOf_pairwise nodeId)
    fun id => by rw [mem_namespacesOf, mem_namespacesOf, h]

/-- The node with a number is read from its row and its links. -/
theorem readNode_congr {later : Instant} {id : Int} (hrow : s'.nodes.get? id = s.nodes.get? id)
    (hlinks : ∀ namespaceId, s'.links.contains (id, namespaceId) = true ↔
      s.links.contains (id, namespaceId) = true) :
    s'.readNode later id = s.readNode later id := by
  have hids := namespacesOf_congr hlinks
  rw [readNode, readNode, hrow]
  cases s.nodes.get? id with
  | none => rfl
  | some row => rw [Option.map_some, nodeOf?, nodeOf?, nodeOf, nodeOf, hids]

/-- **A changed node** reads as its new fields say. -/
theorem Alters.readNode {n before : Node} {old : NodeRow} (h : Alters now n old s s')
    {later : Instant} (hbefore : before.createdAt = .ofStored later old.createdAt) :
    s'.readNode later n.id = .ok (some (n.over now later before)) := by
  have hids : s'.namespacesOf n.id = n.namespaceIds.dedup.mergeSort (· ≤ ·) := by
    refine namespacesOf_eq fun id => ?_
    rw [h.store]
    exact contains_relinked.trans (by rw [if_pos rfl])
  have hrow : s'.nodes.get? n.id = some (n.rowOver now old) := by rw [h.get?, if_pos rfl]
  have hholds : (n.rowOver now old).Holds later n.id (s'.namespacesOf n.id)
      (n.over now later before) := by
    refine ⟨rfl, rfl, ?_, rfl, hids.symm, rfl, rfl, hbefore, by rw [Node.over, Node.rowOver]⟩
    rw [Node.rowOver, Node.isPrimary, Node.over]
    cases n.role <;> rfl
  exact readNode_eq_some_iff.mpr ⟨n.rowOver now old, hrow, hholds⟩

/-- Every other node reads as before. -/
theorem Alters.readNode_of_ne {n : Node} {old : NodeRow} (h : Alters now n old s s')
    (later : Instant) {id : Int} (hid : id ≠ n.id) :
    s'.readNode later id = s.readNode later id := by
  refine readNode_congr ((h.get? id).trans (if_neg hid)) fun namespaceId => ?_
  rw [h.store]
  exact contains_relinked.trans (by rw [if_neg hid])

/-! ## Whole operations -/

/-- Creating a node looks for a primary, and then writes. -/
theorem run_createNode (now : Instant) (n : NewNode) (s : Store) :
    (createNode now n).run s =
      if n.role = .primary then
        match s.readPrimary now with
        | .ok none => (insertNode now n).run s
        | .ok (some _) => (.error .secondPrimary, s)
        | .error e => (.error e, s)
      else (insertNode now n).run s := by
  rw [createNode]
  by_cases hrole : n.role = .primary
  · rcases hprimary : s.readPrimary now with e | _ | primary <;>
      simp [hrole, hprimary, getPrimaryNode]
  · simp [hrole]

/-- Changing a node looks for another primary, and then writes. -/
theorem run_updateNode (now : Instant) (n : Node) (s : Store) :
    (updateNode now n).run s =
      if n.isPrimary = true then
        match s.readPrimary now with
        | .ok none => (replaceNode now n).run s
        | .ok (some primary) =>
          if primary.id = n.id then (replaceNode now n).run s else (.error .secondPrimary, s)
        | .error e => (.error e, s)
      else (replaceNode now n).run s := by
  rw [updateNode]
  by_cases hrole : n.isPrimary = true
  · rcases hprimary : s.readPrimary now with e | _ | primary
    · simp [hrole, hprimary, getPrimaryNode]
    · simp [hrole, hprimary, getPrimaryNode]
    · by_cases hid : primary.id = n.id <;> simp [hrole, hprimary, getPrimaryNode, hid]
  · simp [hrole]

theorem adds_of_createNode {n : NewNode} {node : Node}
    (h : (createNode now n).run s = (.ok node, s')) :
    Adds now n s s' ∧ s'.readNode now s.nodes.next = .ok (some node) := by
  rw [run_createNode] at h
  split at h
  · split at h
    · exact adds_of_insertNode h
    · cases h
    · cases h
  · exact adds_of_insertNode h

theorem alters_of_updateNode {n : Node} (h : (updateNode now n).run s = (.ok (), s')) :
    ∃ old, Alters now n old s s' := by
  rw [run_updateNode] at h
  split at h
  · split at h
    · exact alters_of_replaceNode h
    · split at h
      · exact alters_of_replaceNode h
      · cases h
    · cases h
  · exact alters_of_replaceNode h

end Store

namespace Call

/-- An operation that is answered is an action that is. -/
theorem run_of_lift_ok {α : Type} {a : Action α} {s : Store} {x : α}
    (h : (lift a s).1 = .ok x) : a.run s = (.ok x, (lift a s).2) :=
  Prod.ext (run_of_lift h) (snd_lift a s).symm

variable {s : Store} {now : Instant}

/-- An action that fails does nothing, so it is enough to know what it does when it succeeds. -/
theorem settles_of_atomic {α : Type} {a : Action α} (ha : a.Atomic) {p : Store → Prop}
    (h : ∀ x s', a.run s = (.ok x, s') → p s') : Settles p s (lift a s) := by
  refine settles_lift ?_
  rcases hrun : a.run s with ⟨e | x, s'⟩
  · exact .inl ⟨e, by rw [ha s s' e hrun]⟩
  · exact .inr ⟨x, rfl, h x s' hrun⟩

/-- **A new node**: nothing is changed, or it is added. -/
theorem settles_createNode (now : Instant) (n : NewNode) (s : Store) :
    Settles (Store.Adds now n s) s ((createNode n).run now s) :=
  settles_of_atomic (Store.atomic_createNode now n) fun _ _ hrun =>
    (Store.adds_of_createNode hrun).1

/-- **A node with other fields**: nothing is changed, or it has them. -/
theorem settles_updateNode (now : Instant) (n : Node) (s : Store) :
    Settles (fun s' => ∃ old, Store.Alters now n old s s') s ((updateNode n).run now s) :=
  settles_of_atomic (Store.atomic_updateNode now n) fun _ _ => Store.alters_of_updateNode

theorem alters_of_run {n : Node} {s' : Store} (h : (updateNode n).run now s = (.ok (), s')) :
    ∃ old, Store.Alters now n old s s' := by
  rcases settles_updateNode now n s with ⟨f, hrun⟩ | ⟨-, -, halters⟩
  · cases h.symm.trans hrun
  · rwa [h] at halters

end Call

end GeoReplication
