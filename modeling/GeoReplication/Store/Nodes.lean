import GeoReplication.Store.Basic

/-!
# Store/Nodes — registered installations

At most one node is primary and no two share an address.  Creating and changing a node look for the
primary first and write afterwards, in two steps; the write checks again.
-/

namespace GeoReplication.Store

open GeoReplication.Time

/-- The namespaces a node is restricted to, in ascending order. -/
def namespacesOf (s : Store) (nodeId : Int) : List Int :=
  ((s.links.rows.filter fun r => r.1.1 = nodeId).map fun r => r.1.2).mergeSort (· ≤ ·)

/-- The node in a row. -/
def nodeOf (s : Store) (now : Instant) (r : Int × NodeRow) : Except Error Node :=
  r.2.record now r.1 (s.namespacesOf r.1)

/-- The node in a row, if there is one. -/
def nodeOf? (s : Store) (now : Instant) (r : Option (Int × NodeRow)) :
    Except Error (Option Node) :=
  match r with
  | none => .ok none
  | some r => (s.nodeOf now r).map some

/-- The node with a number. -/
def readNode (s : Store) (now : Instant) (id : Int) : Except Error (Option Node) :=
  s.nodeOf? now ((s.nodes.get? id).map fun row => (id, row))

/-- The node with a number, if there is one and it can be read. -/
def node? (s : Store) (now : Instant) (id : Int) : Option Node := (s.readNode now id).toOption.join

/-- The primary node. -/
def readPrimary (s : Store) (now : Instant) : Except Error (Option Node) :=
  s.nodeOf? now (s.nodes.rows.find? fun r => r.2.primary)

/-- All nodes, by number. -/
def readNodes (s : Store) (now : Instant) : Except Error (List Node) :=
  s.nodes.rows.mapM (s.nodeOf now)

/-- There is a row of a primary. -/
def HasPrimary (s : Store) : Prop := (s.nodes.rows.find? fun r => r.2.primary).isSome = true

instance (s : Store) : Decidable s.HasPrimary := inferInstanceAs (Decidable (_ = _))

theorem isSome_nodeOf? {s : Store} {now : Instant} {r : Option (Int × NodeRow)} {o : Option Node}
    (h : s.nodeOf? now r = .ok o) : o.isSome = r.isSome := by
  cases r with
  | none =>
    cases h
    rfl
  | some r =>
    rw [nodeOf?] at h
    cases hnode : s.nodeOf now r <;> rw [hnode] at h <;> cases h
    rfl

theorem isSome_readNode {s : Store} {now : Instant} {id : Int} {o : Option Node}
    (h : s.readNode now id = .ok o) : o.isSome = s.nodes.contains id :=
  (isSome_nodeOf? h).trans Option.isSome_map

theorem isSome_readPrimary {s : Store} {now : Instant} {o : Option Node}
    (h : s.readPrimary now = .ok o) : o.isSome = true ↔ s.HasPrimary := by
  rw [isSome_nodeOf? h, HasPrimary]

/-- The node with a number. -/
def getNode (now : Instant) (id : Int) : Action (Option Node) := .read fun s => s.readNode now id

/-- The primary node. -/
def getPrimaryNode (now : Instant) : Action (Option Node) := .read fun s => s.readPrimary now

/-- All nodes, by number. -/
def listNodes (now : Instant) : Action (List Node) := .read fun s => s.readNodes now

/-- The first node reached under a URL. -/
def findNodeByUrl (now : Instant) (url : String) : Action (Option Node) := do
  let nodes ← listNodes now
  return nodes.find? fun n => Address.lookupKey n.url == Address.lookupKey url

/-- Restricts a node to one namespace more. -/
def linkNamespace (nodeId namespaceId : Int) : Action Unit :=
  .statement fun s =>
    if s.links.contains (nodeId, namespaceId) then .ok ((), s)
    else if s.nodes.contains nodeId && s.namespaces.contains namespaceId then
      .ok ((), { s with links := s.links.insert (nodeId, namespaceId) () })
    else .error .danglingReference

/-- Restricts a node to namespaces, one after another. -/
def linkNamespaces (nodeId : Int) : List Int → Action Unit
  | [] => pure ()
  | id :: ids => do
    linkNamespace nodeId id
    linkNamespaces nodeId ids

/-- Another row stands in the way of a row: it is primary too, or has the address. -/
def nodeClash (s : Store) (id : Int) (row : NodeRow) : Option Error :=
  let others := s.nodes.rows.filter fun r => r.1 ≠ id
  if row.primary && others.any fun r => r.2.primary then some .secondPrimary
  else if others.any fun r => r.2.address = row.address then some .alreadyExists
  else none

/-- A row more. -/
def insertNodeRow (row : NodeRow) : Action Int :=
  .statement fun s =>
    match s.nodeClash s.nodes.next row with
    | some e => .error e
    | none => .ok (s.nodes.next, { s with nodes := s.nodes.insert row })

/-- The write of a new node: its row, its namespaces, and the node as it is stored. -/
def insertNode (now : Instant) (n : NewNode) : Action Node :=
  .transaction do
    let id ← insertNodeRow {
      address := n.address.trimmed.row
      primary := n.role = .primary
      enabled := n.enabled
      reposMaxCapacity := n.reposMaxCapacity.toNat
      filesMaxCapacity := n.filesMaxCapacity.toNat
      createdAt := now.stored
      updatedAt := now.stored }
    linkNamespaces id n.namespaceIds
    .read fun s =>
      match s.readNode now id with
      | .ok (some node) => .ok node
      | .ok none => .error .notFound
      | .error e => .error e

/-- A new node. -/
def createNode (now : Instant) (n : NewNode) : Action Node := do
  if n.role = .primary then
    if (← getPrimaryNode now).isSome then .fail .secondPrimary
  insertNode now n

/-- The row of a node with the fields of `n`. -/
def updateNodeRow (now : Instant) (n : Node) : Action Unit :=
  .statement fun s =>
    match s.nodes.get? n.id with
    | none => .error .notFound
    | some old =>
      let row : NodeRow :=
        { old with
          address := n.address.trimmed.row
          primary := n.isPrimary
          enabled := n.enabled
          reposMaxCapacity := n.reposMaxCapacity.toNat
          filesMaxCapacity := n.filesMaxCapacity.toNat
          updatedAt := now.stored }
      match s.nodeClash n.id row with
      | some e => .error e
      | none => .ok ((), { s with nodes := s.nodes.modify n.id fun _ => row })

/-- Lifts all restrictions of a node. -/
def unlinkNamespaces (nodeId : Int) : Action Unit :=
  .statement fun s => .ok ((), { s with links := s.links.filter fun (node, _) _ => node ≠ nodeId })

/-- The write of a changed node. -/
def replaceNode (now : Instant) (n : Node) : Action Unit :=
  .transaction do
    updateNodeRow now n
    unlinkNamespaces n.id
    linkNamespaces n.id n.namespaceIds

/-- Gives a node the fields of `n`. -/
def updateNode (now : Instant) (n : Node) : Action Unit := do
  if n.isPrimary then
    if let some primary ← getPrimaryNode now then
      if primary.id ≠ n.id then .fail .secondPrimary
  replaceNode now n

/-- Removes a node with everything that is kept for it. -/
def deleteNode (id : Int) : Action Bool :=
  .statement fun s =>
    .ok (s.nodes.contains id, { s with
      nodes := s.nodes.erase id
      links := s.links.filter fun (node, _) _ => node ≠ id
      registries := s.registries.filter fun (node, _) _ => node ≠ id
      copies := s.copies.filter fun (node, _, _) _ => node ≠ id
      failures := s.failures.filter fun (node, _, _) _ => node ≠ id
      cursors := s.cursors.erase id })

end GeoReplication.Store
