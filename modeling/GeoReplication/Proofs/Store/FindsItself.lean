import GeoReplication.Proofs.Store.Distinct
import GeoReplication.Proofs.Url.Spelled

/-!
# Proofs/Store/FindsItself — an installation looks for the node it was registered as

    u  ──ofUrl?──▸  n  ──createNode──▸  x          u  ──findNodeByUrl──▸  x ?

A node is looked up by the URL it prints.  The URL it was registered under finds it just if it is
written like that (`found_after_create`), so a port that goes without saying, a leading zero or a
second slash hides a node from itself (`hidden_by_default_port`).
-/

namespace GeoReplication

open GeoReplication.Time

theorem NewNode.parse?_of_ofUrl? {u : String} {role : NodeRole} {n : NewNode}
    (h : ofUrl? u role = some n) : Address.parse? u = some n.address := by
  obtain ⟨a, ha, rfl⟩ := Option.map_eq_some_iff.mp h
  exact ha

namespace Store

open GeoReplication.Action

variable {s s' : Store} {now : Instant} {role : NodeRole} {n : NewNode} {x : Node} {u : String}

/-! ## All nodes -/

/-- The rows of nodes are read one by one. -/
theorem readNodes_eq_ok_iff {nodes : List Node} : s.readNodes now = .ok nodes ↔
    List.Forall₂ (fun r n => r.2.Holds now r.1 (s.namespacesOf r.1) n) s.nodes.rows nodes := by
  simp only [readNodes, mapM_eq_ok_iff, nodeOf, NodeRow.record_eq_ok_iff]

/-- The namespaces of other nodes are those that they were. -/
theorem Adds.namespacesOf (hadds : Adds now n s s') {r : Int × NodeRow} (hr : r ∈ s.nodes.rows) :
    s'.namespacesOf r.1 = s.namespacesOf r.1 := by
  refine namespacesOf_congr fun namespaceId => ?_
  rw [hadds.store, contains_linked]
  refine or_iff_left fun hnew => ?_
  have hnone := s.nodes.get?_next
  rw [← hnew.1, Numbered.get?_eq_some_iff.mpr hr] at hnone
  cases hnone

/-- **A new node is listed last**, behind those that were listed before. -/
theorem Adds.exists_last (hadds : Adds now n s s') (later : Instant) :
    ∃ last : Node, last.id = s.nodes.next ∧ last.address = n.address.trimmed ∧
      ∀ nodes, s'.readNodes later = .ok nodes ↔
        ∃ before, s.readNodes later = .ok before ∧ nodes = before ++ [last] := by
  obtain ⟨last, hlast⟩ := (NodeRow.written_row now n).exists_record later s.nodes.next
    (s'.namespacesOf s.nodes.next)
  have hholds := NodeRow.record_eq_ok_iff.mp hlast
  have hrows : s'.nodes.rows = s.nodes.rows ++ [(s.nodes.next, n.row now)] := by
    rw [hadds.store]
    rfl
  have hbefore : s.nodes.rows.mapM (s'.nodeOf later) = s.readNodes later := by
    refine mapM_congr fun r hr => ?_
    rw [nodeOf, nodeOf, hadds.namespacesOf hr]
  have hnew : [(s.nodes.next, n.row now)].mapM (s'.nodeOf later) = .ok [last] :=
    mapM_eq_ok_iff.mpr (.cons hlast .nil)
  refine ⟨last, hholds.id, Address.row_injective hholds.address.symm, fun nodes => ?_⟩
  rw [readNodes, hrows, List.mapM_append, hbefore, hnew, bind_eq_ok_iff]
  constructor
  · rintro ⟨before, hread, heq⟩
    exact ⟨before, hread, (Except.ok.inj heq).symm⟩
  · rintro ⟨before, hread, rfl⟩
    exact ⟨before, hread, rfl⟩

/-! ## Looking up -/

/-- Looking for a node reads all of them. -/
theorem run_findNodeByUrl (s : Store) (now : Instant) (u : String) :
    (Call.findNodeByUrl u).run now s = match s.readNodes now with
      | .ok nodes =>
        (.ok (nodes.find? fun n => Address.lookupKey n.url == Address.lookupKey u), s)
      | .error e => (.error (.error e), s) := by
  change Call.lift (findNodeByUrl now u) s = _
  rw [Call.lift, findNodeByUrl, listNodes, run_bind, run_read]
  cases s.readNodes now <;> rfl

/-- The first of all nodes that has the key of a URL. -/
theorem findNodeByUrl_eq_iff (u : String) {r : Option Node} :
    (Call.findNodeByUrl u).run now s = (.ok r, s) ↔ ∃ nodes, s.readNodes now = .ok nodes ∧
      (nodes.find? fun n => Address.lookupKey n.url == Address.lookupKey u) = r := by
  rw [run_findNodeByUrl]
  cases s.readNodes now <;> simp

/-- What was found before a node was added is found after it.  If that was none, the new node is
found if the URL is written as it is printed, and none if not. -/
theorem Adds.exists_found (hadds : Adds now n s s') (hparse : Address.parse? u = some n.address)
    (later : Instant) : ∃ last : Node, last.id = s.nodes.next ∧ ∀ y,
      (Call.findNodeByUrl u).run later s' = (.ok y, s') ↔
        ∃ before, (Call.findNodeByUrl u).run later s = (.ok before, s) ∧
          before.or (if n.address.SpelledBy u then some last else none) = y := by
  obtain ⟨last, hid, haddress, hlisted⟩ := hadds.exists_last later
  have hkey : (Address.lookupKey last.url == Address.lookupKey u) =
      decide (n.address.SpelledBy u) := by
    rw [Node.url, haddress, Address.trimmed_of_parse? hparse, Bool.eq_iff_iff, beq_iff_eq,
      decide_eq_true_iff, eq_comm]
    exact Address.lookupKey_eq_iff hparse
  have hfind (before : List Node) : ((before ++ [last]).find? fun n =>
      Address.lookupKey n.url == Address.lookupKey u) =
        (before.find? fun n => Address.lookupKey n.url == Address.lookupKey u).or
          (if n.address.SpelledBy u then some last else none) := by
    rw [List.find?_append, List.find?_singleton, hkey]
    simp only [decide_eq_true_eq]
  refine ⟨last, hid, fun y => ?_⟩
  rw [findNodeByUrl_eq_iff]
  constructor
  · rintro ⟨nodes, hnodes, rfl⟩
    obtain ⟨before, hbefore, rfl⟩ := (hlisted nodes).mp hnodes
    exact ⟨_, (findNodeByUrl_eq_iff u).mpr ⟨before, hbefore, rfl⟩, (hfind before).symm⟩
  · rintro ⟨_, hbefore, rfl⟩
    obtain ⟨before, hread, rfl⟩ := (findNodeByUrl_eq_iff u).mp hbefore
    exact ⟨before ++ [last], (hlisted _).mpr ⟨before, hread, rfl⟩, hfind before⟩

/-- **Which URLs find a node again.**  A node is created as a URL says.  Looking for a node with the
same URL then gives one just if the URL is written as the node prints it, with or without the slash
at the end, or if a node was there before that the URL finds.  If none was, the one that is found is
the new one.  All that supposes that the nodes which were there before could be read, as they can in
every store that comes to be. -/
theorem found_after_create (hn : NewNode.ofUrl? u role = some n)
    (hcreate : (Call.createNode n).run now s = (.ok x, s')) (later : Instant) :
    ((∃ y, (Call.findNodeByUrl u).run later s' = (.ok (some y), s')) ↔
      ∃ before, (Call.findNodeByUrl u).run later s = (.ok before, s) ∧
        (n.address.SpelledBy u ∨ before.isSome = true)) ∧
    (n.address.SpelledBy u → (Call.findNodeByUrl u).run later s = (.ok none, s) →
      ∃ y, (Call.findNodeByUrl u).run later s' = (.ok (some y), s') ∧ y.id = x.id) ∧
    (s.Reached → ∃ before, (Call.findNodeByUrl u).run later s = (.ok before, s)) := by
  have hrun : (createNode now n).run s = (.ok x, s') := by
    have hreply := Call.run_of_lift_ok (congrArg Prod.fst hcreate)
    rwa [show (Call.lift (createNode now n) s).2 = s' from congrArg Prod.snd hcreate] at hreply
  obtain ⟨last, hid, hafter⟩ :=
    (adds_of_createNode hrun).1.exists_found (NewNode.parse?_of_ofUrl? hn) later
  refine ⟨?_, ?_, ?_⟩
  · constructor
    · rintro ⟨y, hfind⟩
      obtain ⟨before, hbefore, heq⟩ := (hafter _).mp hfind
      refine ⟨before, hbefore, ?_⟩
      by_cases hspelled : n.address.SpelledBy u
      · exact .inl hspelled
      · rw [if_neg hspelled, Option.or_none] at heq
        exact .inr (heq ▸ rfl)
    · rintro ⟨before, hbefore, hfound⟩
      cases before with
      | some y => exact ⟨y, (hafter _).mpr ⟨_, hbefore, rfl⟩⟩
      | none =>
        have hspelled := hfound.resolve_right Bool.false_ne_true
        exact ⟨last, (hafter _).mpr ⟨_, hbefore, if_pos hspelled⟩⟩
  · intro hspelled hnone
    refine ⟨last, (hafter _).mpr ⟨none, hnone, if_pos hspelled⟩, ?_⟩
    rw [hid, created_node hrun]
  · intro hreached
    obtain ⟨nodes, hnodes⟩ := hreached.nodesWritten.exists_readNodes later
    exact ⟨_, (findNodeByUrl_eq_iff u).mpr ⟨nodes, hnodes, rfl⟩⟩

/-- A secondary on a host, with what a new node is given. -/
def geoNode (port : UInt16) (root : String) : NewNode :=
  ⟨⟨"http", "geo-2", port, root⟩, .secondary, true, [], 25, 10⟩

/-- The store with such a node, the only one. -/
def geoStore (port : UInt16) (root : String) : Store :=
  ((Call.createNode (geoNode port root)).run .epoch .empty).2

theorem exists_created {n : NewNode} (h : ((Call.createNode n).run .epoch s).1.isOk = true) :
    ∃ x, (Call.createNode n).run .epoch s = (.ok x, ((Call.createNode n).run .epoch s).2) := by
  cases hreply : ((Call.createNode n).run .epoch s).1 with
  | error f =>
    rw [hreply] at h
    cases h
  | ok x => exact ⟨x, Prod.ext hreply rfl⟩

/-- A URL with a port of its own, a root and no slash at the end, next to another node. -/
theorem found_after_create_below_root : ∃ x s',
    NewNode.ofUrl? "http://geo-2:8080/gitlab" .secondary = some (geoNode 8080 "gitlab") ∧
    (Call.createNode (geoNode 8080 "gitlab")).run .epoch (geoStore 80 "") = (.ok x, s') ∧
    ∃ y, (Call.findNodeByUrl "http://geo-2:8080/gitlab").run .epoch s' = (.ok (some y), s') ∧
      y.id = x.id := by
  have hn : NewNode.ofUrl? "http://geo-2:8080/gitlab" .secondary =
      some (geoNode 8080 "gitlab") := by decide +kernel
  have hspelled : (geoNode 8080 "gitlab").address.SpelledBy "http://geo-2:8080/gitlab" := by
    decide +kernel
  have hnone : ∃ nodes, (geoStore 80 "").readNodes .epoch = .ok nodes ∧ (nodes.find? fun n =>
      Address.lookupKey n.url == Address.lookupKey "http://geo-2:8080/gitlab") = none := by
    refine ⟨[⟨1, ⟨"http", "geo-2", 80, ""⟩, .secondary, true, [], 25, 10, .epoch, .epoch⟩], ?_⟩
    decide +kernel
  have hbefore : (Call.findNodeByUrl "http://geo-2:8080/gitlab").run .epoch (geoStore 80 "") =
      (.ok none, geoStore 80 "") := (findNodeByUrl_eq_iff _).mpr hnone
  obtain ⟨x, hcreate⟩ := exists_created (s := geoStore 80 "") (n := geoNode 8080 "gitlab")
    (by decide +kernel)
  exact ⟨x, _, hn, hcreate, (found_after_create hn hcreate .epoch).2.1 hspelled hbefore⟩

/-- A URL that names the port of its scheme: the node it registers is not found by it. -/
theorem hidden_by_default_port : ∃ n x s',
    NewNode.ofUrl? "http://geo-2:80/" .secondary = some n ∧
    (Call.createNode n).run .epoch .empty = (.ok x, s') ∧
    (Call.findNodeByUrl "http://geo-2:80/").run .epoch s' = (.ok none, s') := by
  have hn : NewNode.ofUrl? "http://geo-2:80/" .secondary = some (geoNode 80 "") := by
    decide +kernel
  have hnone : ∃ nodes, (geoStore 80 "").readNodes .epoch = .ok nodes ∧ (nodes.find? fun n =>
      Address.lookupKey n.url == Address.lookupKey "http://geo-2:80/") = none := by
    refine ⟨[⟨1, ⟨"http", "geo-2", 80, ""⟩, .secondary, true, [], 25, 10, .epoch, .epoch⟩], ?_⟩
    decide +kernel
  obtain ⟨x, hcreate⟩ := exists_created (s := .empty) (n := geoNode 80 "") (by decide +kernel)
  exact ⟨geoNode 80 "", x, geoStore 80 "", hn, hcreate, (findNodeByUrl_eq_iff _).mpr hnone⟩

end Store

end GeoReplication
