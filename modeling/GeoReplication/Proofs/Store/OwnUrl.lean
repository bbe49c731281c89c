import GeoReplication.Proofs.Store.Distinct
import GeoReplication.Proofs.Store.FindsItself
import GeoReplication.Proofs.Url.Lookalike

/-!
# Proofs/Store/OwnUrl — a node looked up under its own URL

    n ──url──▸ u ──findNodeByUrl──▸ the node of lowest number under the key of u

The store keeps no two nodes at one address, but looks for them in lower case and as they are
printed.  So under the URL of a node something is always found, and it is the node itself just if no
node of lower number has the same key (`Reached.finds_lowest`).  Two nodes whose hosts differ in
letter case only are kept apart by the store and not by the look-up (`confused_by_case`).
-/

namespace GeoReplication

open GeoReplication.Time

/-- In a list in ascending order, what is found first is what comes lowest. -/
theorem le_of_find?_eq_some {α : Type} {f : α → Int} {p : α → Bool} {l : List α} {m k : α}
    (hl : l.Pairwise fun a b => f a < f b) (hm : l.find? p = some m) (hk : k ∈ l)
    (hp : p k = true) : f m ≤ f k := by
  obtain ⟨-, before, after, rfl, hbefore⟩ := List.find?_eq_some_iff_append.mp hm
  rcases List.mem_append.mp hk with hk | hk
  · have hskipped := hbefore k hk
    rw [hp] at hskipped
    cases hskipped
  · rcases List.mem_cons.mp hk with rfl | hk
    · exact Int.le_refl _
    · exact Int.le_of_lt ((List.pairwise_cons.mp (List.pairwise_append.mp hl).2.1).1 k hk)

namespace Node

/-- Look-ups cannot tell the nodes apart. -/
def Confused (m n : Node) : Prop := Address.lookupKey m.url = Address.lookupKey n.url

instance (m n : Node) : Decidable (m.Confused n) := inferInstanceAs (Decidable (_ = _))

end Node

namespace Store

variable {s : Store} {now : Instant} {nodes : List Node} {m n : Node} {u : String}

/-! ## All nodes -/

theorem run_listNodes_eq_iff :
    Call.listNodes.run now s = (.ok nodes, s) ↔ s.readNodes now = .ok nodes :=
  Call.lift_read_eq_ok_iff

/-- All nodes are listed in the order of their rows. -/
theorem ids_of_readNodes (hlist : s.readNodes now = .ok nodes) :
    nodes.map Node.id = s.nodes.rows.map Prod.fst := by
  have hids := (readNodes_eq_ok_iff.mp hlist).imp fun r n hholds => hholds.id.symm
  rw [← List.forall₂_eq_eq_eq, List.forall₂_map_left_iff, List.forall₂_map_right_iff]
  exact hids.flip.imp fun _ _ => Eq.symm

theorem pairwise_of_readNodes (hlist : s.readNodes now = .ok nodes) :
    nodes.Pairwise fun m n => m.id < n.id := by
  rw [← List.pairwise_map, ids_of_readNodes hlist]
  exact s.nodes.ascending

theorem row_of_mem (hlist : s.readNodes now = .ok nodes) (hn : n ∈ nodes) :
    ∃ row, s.nodes.get? n.id = some row ∧ row.address = n.address.row := by
  obtain ⟨hlength, hrows⟩ := List.forall₂_iff_get.mp (readNodes_eq_ok_iff.mp hlist)
  obtain ⟨i, hi, rfl⟩ := List.mem_iff_getElem.mp hn
  have hholds := hrows i (hlength ▸ hi) hi
  refine ⟨_, Numbered.get?_eq_some_iff.mpr ?_, hholds.address⟩
  rw [List.get_eq_getElem] at hholds
  exact hholds.id ▸ List.getElem_mem _

/-- No two nodes have one number. -/
theorem eq_of_id (hlist : s.readNodes now = .ok nodes) (hm : m ∈ nodes) (hn : n ∈ nodes)
    (h : m.id = n.id) : m = n := by
  have hnodup : (nodes.map Node.id).Nodup :=
    (List.pairwise_map.mpr (pairwise_of_readNodes hlist)).imp Int.ne_of_lt
  exact List.inj_on_of_nodup_map hnodup hm hn h

/-- Nor one address. -/
theorem Reached.eq_of_address (h : s.Reached) (hlist : s.readNodes now = .ok nodes) (hm : m ∈ nodes)
    (hn : n ∈ nodes) (haddress : m.address = n.address) : m = n := by
  obtain ⟨row, hrow, hrowm⟩ := row_of_mem hlist hm
  obtain ⟨row', hrow', hrown⟩ := row_of_mem hlist hn
  refine eq_of_id hlist hm hn (h.distinct.nodes m.id n.id row row' hrow hrow' (.inr ?_))
  rw [hrowm, hrown, haddress]

/-! ## The node under a URL -/

/-- Of all nodes, the first that has the key of a URL. -/
theorem findNodeByUrl_iff (hlist : s.readNodes now = .ok nodes) (u : String) {r : Option Node} :
    (Call.findNodeByUrl u).run now s = (.ok r, s) ↔
      (nodes.find? fun n => Address.lookupKey n.url == Address.lookupKey u) = r := by
  rw [findNodeByUrl_eq_iff]
  constructor
  · rintro ⟨nodes', hlist', hfind⟩
    obtain rfl := Except.ok.inj (hlist.symm.trans hlist')
    exact hfind
  · exact fun hfind => ⟨nodes, hlist, hfind⟩

/-- What is found under a URL is one node. -/
theorem eq_of_findNodeByUrl (hm : (Call.findNodeByUrl u).run now s = (.ok (some m), s))
    (hn : (Call.findNodeByUrl u).run now s = (.ok (some n), s)) : m = n :=
  Option.some.inj (Except.ok.inj (congrArg Prod.fst (hm.symm.trans hn)))

/-- If nodes have the key of a URL, the one of lowest number is found. -/
theorem exists_first (hlist : s.readNodes now = .ok nodes) (u : String) (hn : n ∈ nodes)
    (hkey : Address.lookupKey n.url = Address.lookupKey u) : ∃ m ∈ nodes,
      (Call.findNodeByUrl u).run now s = (.ok (some m), s) ∧
        Address.lookupKey m.url = Address.lookupKey u ∧
        ∀ k ∈ nodes, Address.lookupKey k.url = Address.lookupKey u → m.id ≤ k.id := by
  have hsome : (nodes.find? fun m : Node =>
      Address.lookupKey m.url == Address.lookupKey u).isSome = true :=
    List.find?_isSome.mpr ⟨n, hn, beq_iff_eq.mpr hkey⟩
  obtain ⟨m, hm⟩ := Option.isSome_iff_exists.mp hsome
  have hmkey := List.find?_some hm
  refine ⟨m, List.mem_of_find?_eq_some hm, (findNodeByUrl_iff hlist u).mpr hm, beq_iff_eq.mp hmkey,
    fun k hk hkkey => ?_⟩
  exact le_of_find?_eq_some (pairwise_of_readNodes hlist) hm hk (beq_iff_eq.mpr hkkey)

/-- A node is found just if it is the first under the key of the URL. -/
theorem found_iff (hlist : s.readNodes now = .ok nodes) (u : String) (hn : n ∈ nodes) :
    (Call.findNodeByUrl u).run now s = (.ok (some n), s) ↔
      Address.lookupKey n.url = Address.lookupKey u ∧
        ∀ m ∈ nodes, Address.lookupKey m.url = Address.lookupKey u → n.id ≤ m.id := by
  constructor
  · intro hfound
    have hkey := List.find?_some ((findNodeByUrl_iff hlist u).mp hfound)
    obtain ⟨m, -, hfirst, hmkey, hlowest⟩ := exists_first hlist u hn (beq_iff_eq.mp hkey)
    obtain rfl := eq_of_findNodeByUrl hfirst hfound
    exact ⟨hmkey, hlowest⟩
  · rintro ⟨hkey, hlowest⟩
    obtain ⟨m, hm, hfirst, hmkey, hmlowest⟩ := exists_first hlist u hn hkey
    obtain rfl := eq_of_id hlist hm hn
      (Int.le_antisymm (hmlowest n hn hkey) (hlowest m hm hmkey))
    exact hfirst

/-- A node finds itself just if it has the lowest number of those it is confused with. -/
theorem finds_itself_iff (hlist : s.readNodes now = .ok nodes) (hn : n ∈ nodes) :
    (Call.findNodeByUrl n.url).run now s = (.ok (some n), s) ↔
      ∀ k ∈ nodes, k.Confused n → n.id ≤ k.id :=
  (found_iff hlist n.url hn).trans (and_iff_right rfl)

/-- All nodes find themselves just if no two are confused. -/
theorem find_themselves_iff (hlist : s.readNodes now = .ok nodes) :
    (∀ n ∈ nodes, (Call.findNodeByUrl n.url).run now s = (.ok (some n), s)) ↔
      ∀ m ∈ nodes, ∀ n ∈ nodes, m.Confused n → m = n := by
  constructor
  · intro hall m hm n hn hconfused
    refine eq_of_id hlist hm hn (Int.le_antisymm ?_ ?_)
    · exact (finds_itself_iff hlist hm).mp (hall m hm) n hn hconfused.symm
    · exact (finds_itself_iff hlist hn).mp (hall n hn) m hm hconfused
  · intro hapart n hn
    refine (finds_itself_iff hlist hn).mpr fun k hk hconfused => ?_
    rw [hapart k hk n hn hconfused]

/-- **A URL and the nodes that it stands for.**  In every store that comes to be, all nodes can be
listed, and the URL of a node finds a node: of those that look-ups cannot tell from it, the one of
lowest number, at an address of its own.  So each node finds itself just if look-ups can tell all of
them apart.  Nodes whose addresses can be read from URLs are confused just if these agree in lower
case as they are printed; no two are if all addresses are written in lower case, without a colon in
the host and a blank before the scheme. -/
theorem Reached.finds_lowest (h : s.Reached) (now : Instant) :
    ∃ nodes, Call.listNodes.run now s = (.ok nodes, s) ∧
    (∀ n ∈ nodes, ∃ m ∈ nodes,
      (Call.findNodeByUrl n.url).run now s = (.ok (some m), s) ∧ m.Confused n ∧
        (∀ k ∈ nodes, k.Confused n → m.id ≤ k.id) ∧ (m ≠ n → m.address ≠ n.address)) ∧
    ((∀ n ∈ nodes, (Call.findNodeByUrl n.url).run now s = (.ok (some n), s)) ↔
      ∀ m ∈ nodes, ∀ n ∈ nodes, m.Confused n → m = n) ∧
    (∀ m ∈ nodes, ∀ n ∈ nodes, ∀ u v, Address.parse? u = some m.address →
      Address.parse? v = some n.address → (m.Confused n ↔ m.address.Resembles n.address)) ∧
    ((∀ n ∈ nodes, n.address.Plain) →
      ∀ n ∈ nodes, (Call.findNodeByUrl n.url).run now s = (.ok (some n), s)) := by
  obtain ⟨nodes, hlist⟩ := h.nodesWritten.exists_readNodes now
  refine ⟨nodes, run_listNodes_eq_iff.mpr hlist, fun n hn => ?_, find_themselves_iff hlist,
    fun m _ n _ u v hm hn => ?_, fun hplain => ?_⟩
  · obtain ⟨m, hm, hfind, hconfused, hlowest⟩ := exists_first hlist n.url hn rfl
    refine ⟨m, hm, hfind, hconfused, hlowest, fun hne haddress => hne ?_⟩
    exact h.eq_of_address hlist hm hn haddress
  · exact Address.lookupKey_url_eq_iff (Address.readable_of_parse? hm)
      (Address.readable_of_parse? hn)
  · refine (find_themselves_iff hlist).mpr fun m hm n hn hconfused => ?_
    exact h.eq_of_address hlist hm hn ((hplain m hm).eq_of_lookupKey (hplain n hn) hconfused)

/-! ## Nodes under one key -/

/-- A store in which secondaries were registered, one after another. -/
def registered (addresses : List Address) : Store :=
  (addresses.map fun a => Call.createNode ⟨a, .secondary, true, [], 25, 10⟩).foldl
    (fun s c => (c.run .epoch s).2) .empty

theorem reached_registered (addresses : List Address) : (registered addresses).Reached :=
  Reached.calls .epoch _ .empty

/-- The nodes of such a store. -/
def registeredNodes (addresses : List Address) : List Node :=
  addresses.mapIdx fun k a => ⟨k + 1, a, .secondary, true, [], 25, 10, .epoch, .epoch⟩

/-- The last of these is printed as the first. -/
def behindHost : List Address :=
  [⟨"http", "geo-2:81", 80, ""⟩, ⟨"https", "geo-2", 81, ""⟩, ⟨"http", "geo-2", 81, ""⟩]

/-- A node on another scheme finds itself.  One whose port is printed as the end of another's host
finds that one. -/
theorem finds_lowest_behind_host :
    let s := registered behindHost
    s.Reached ∧ ∃ nodes, Call.listNodes.run .epoch s = (.ok nodes, s) ∧
      nodes.map Node.id = [1, 2, 3] ∧ ∀ n ∈ nodes, ∃ m ∈ nodes,
        (Call.findNodeByUrl n.url).run .epoch s = (.ok (some m), s) ∧
          m.id = if n.id = 3 then 1 else n.id := by
  intro s
  have hreached : s.Reached := reached_registered _
  obtain ⟨nodes, hlist, hfinds, -⟩ := hreached.finds_lowest .epoch
  have hnodes : s.readNodes .epoch = .ok (registeredNodes behindHost) := by decide +kernel
  obtain rfl := Except.ok.inj ((run_listNodes_eq_iff.mp hlist).symm.trans hnodes)
  have hlowest : ∀ n ∈ registeredNodes behindHost, ∀ m ∈ registeredNodes behindHost,
      m.Confused n → (∀ k ∈ registeredNodes behindHost, k.Confused n → m.id ≤ k.id) →
      m.id = if n.id = 3 then 1 else n.id := by decide +kernel
  refine ⟨hreached, _, hlist, rfl, fun n hn => ?_⟩
  obtain ⟨m, hm, hfind, hconfused, hm', -⟩ := hfinds n hn
  exact ⟨m, hm, hfind, hlowest n hn m hm hconfused hm'⟩

/-- Hosts that differ in letter case. -/
def inTwoCases : List Address := [⟨"http", "geo-2", 80, ""⟩, ⟨"http", "GEO-2", 80, ""⟩]

/-- **Two nodes with one URL**: hosts that differ in letter case are kept apart by the store, and
not by the look-up. -/
theorem confused_by_case :
    let s := registered inTwoCases
    s.Reached ∧ ∃ nodes, Call.listNodes.run .epoch s = (.ok nodes, s) ∧
      ∃ m ∈ nodes, ∃ n ∈ nodes, m.id ≠ n.id ∧
        (Call.findNodeByUrl n.url).run .epoch s = (.ok (some m), s) := by
  intro s
  have hlist : s.readNodes .epoch = .ok (registeredNodes inTwoCases) := by decide +kernel
  obtain ⟨m, hm, n, hn, hid, hfind⟩ : ∃ m ∈ registeredNodes inTwoCases,
      ∃ n ∈ registeredNodes inTwoCases, m.id ≠ n.id ∧ ((registeredNodes inTwoCases).find? fun k =>
        Address.lookupKey k.url == Address.lookupKey n.url) = some m := by decide +kernel
  exact ⟨reached_registered _, _, run_listNodes_eq_iff.mpr hlist, m, hm, n, hn, hid,
    (findNodeByUrl_iff hlist n.url).mpr hfind⟩

end Store

end GeoReplication
