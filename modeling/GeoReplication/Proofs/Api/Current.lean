import GeoReplication.Proofs.Store.OwnUrl
import GeoReplication.Proofs.Url.Named
import GeoReplication.Wire.Node

/-!
# Proofs/Api/Current — who the nodes say answers

    n ──NodeView.of n u──▸ current?          findNodeByUrl u ──▸ the node that answers at u

The lists of the interface mark the nodes that answer at a URL, and requests are served by the node
that the store finds under it.  The lists compare URLs without slashes at the end, and the store
compares them without blanks around.  So a node has both marks just if the URL names its address
(`namedBy_iff`), and lists and store agree just if such a node is the only one that is marked and
the first of those with its key, or if there is no node of either kind (`Reached.marked_iff_found`).
-/

namespace GeoReplication

open GeoReplication.Time Text

namespace Store

variable {s : Store} {now : Instant} {nodes : List Node} {m n : Node} {u : String}

/-- The nodes that are shown as the one that answers at the URL are the one that is found under it.
-/
def MarksFound (s : Store) (now : Instant) (u : String) : Prop :=
  ∃ nodes, Call.listNodes.run now s = (.ok nodes, s) ∧
    ∀ n ∈ nodes, (NodeView.of n u).current = true ↔
      (Call.findNodeByUrl u).run now s = (.ok (some n), s)

theorem marksFound_of_readNodes (hlist : s.readNodes now = .ok nodes) (u : String) :
    s.MarksFound now u ↔ ∀ n ∈ nodes, (NodeView.of n u).current = true ↔
      (Call.findNodeByUrl u).run now s = (.ok (some n), s) := by
  constructor
  · rintro ⟨nodes', hlist', h⟩
    obtain rfl := Except.ok.inj (hlist.symm.trans (run_listNodes_eq_iff.mp hlist'))
    exact h
  · exact fun h => ⟨nodes, run_listNodes_eq_iff.mpr hlist, h⟩

/-- One node is marked and found, or there is none to mark or to find. -/
theorem marksFound_iff (hlist : s.readNodes now = .ok nodes) (u : String) : s.MarksFound now u ↔
    (∀ n ∈ nodes, (NodeView.of n u).current = false ∧
      Address.lookupKey n.url ≠ Address.lookupKey u) ∨
    ∃ n ∈ nodes, n.address.NamedBy u ∧
      (∀ m ∈ nodes, (NodeView.of m u).current = true → m = n) ∧
      ∀ m ∈ nodes, Address.lookupKey m.url = Address.lookupKey u → n.id ≤ m.id := by
  rw [marksFound_of_readNodes hlist]
  constructor
  · intro h
    cases hfind : nodes.find? fun m : Node =>
        Address.lookupKey m.url == Address.lookupKey u with
    | none =>
      refine .inl fun n hn => ⟨Bool.eq_false_iff.mpr fun hmarked => ?_, fun hkey => ?_⟩
      · have hfound := (findNodeByUrl_iff hlist u).mp ((h n hn).mp hmarked)
        exact absurd (hfind.symm.trans hfound) (by simp)
      · exact List.find?_eq_none.mp hfind n hn (beq_iff_eq.mpr hkey)
    | some n =>
      have hn := List.mem_of_find?_eq_some hfind
      have hfound := (findNodeByUrl_iff hlist u).mpr hfind
      obtain ⟨hkey, hlowest⟩ := (found_iff hlist u hn).mp hfound
      have hnamed := (Address.namedBy_iff n.address u).mpr ⟨(h n hn).mpr hfound, hkey⟩
      refine .inr ⟨n, hn, hnamed, fun m hm hmarked => ?_, hlowest⟩
      exact eq_of_findNodeByUrl ((h m hm).mp hmarked) hfound
  · rintro (hnone | ⟨n, hn, hnamed, honly, hlowest⟩) m hm
    · rw [found_iff hlist u hm]
      obtain ⟨hmarked, hkey⟩ := hnone m hm
      exact ⟨fun h => absurd (hmarked.symm.trans h) Bool.false_ne_true, fun h => absurd h.1 hkey⟩
    · obtain ⟨hmarked, hkey⟩ := (Address.namedBy_iff n.address u).mp hnamed
      have hfound := (found_iff hlist u hn).mpr ⟨hkey, hlowest⟩
      constructor
      · intro hm'
        obtain rfl := honly m hm hm'
        exact hfound
      · intro hm'
        obtain rfl := eq_of_findNodeByUrl hm' hfound
        exact hmarked

/-- **Who answers at a URL**, in every store that comes to be: all nodes can be listed there.  A
node is marked and has the key of the URL just if the URL is written as its address is printed, but
for letter case and a slash at the end.  The nodes that are marked are the one that is found just if
one node is so named, is the only one that is marked and has the lowest number under the key, or if
none is marked and none has the key.  That is so whenever the URL is tidy and all addresses are
plain; then one node is marked at most. -/
theorem Reached.marked_iff_found (h : s.Reached) (now : Instant) (u : String) :
    ∃ nodes, Call.listNodes.run now s = (.ok nodes, s) ∧
    (∀ n ∈ nodes, (NodeView.of n u).current = true ∧
      Address.lookupKey n.url = Address.lookupKey u ↔ n.address.NamedBy u) ∧
    (s.MarksFound now u ↔
      (∀ n ∈ nodes, (NodeView.of n u).current = false ∧
        Address.lookupKey n.url ≠ Address.lookupKey u) ∨
      ∃ n ∈ nodes, n.address.NamedBy u ∧
        (∀ m ∈ nodes, (NodeView.of m u).current = true → m = n) ∧
        ∀ m ∈ nodes, Address.lookupKey m.url = Address.lookupKey u → n.id ≤ m.id) ∧
    (IsTidy u.toList → (∀ n ∈ nodes, n.address.Plain) → s.MarksFound now u ∧
      ∀ m ∈ nodes, ∀ n ∈ nodes, (NodeView.of m u).current = true →
        (NodeView.of n u).current = true → m = n) := by
  obtain ⟨nodes, hlist⟩ := h.nodesWritten.exists_readNodes now
  refine ⟨nodes, run_listNodes_eq_iff.mpr hlist, fun n _ => (Address.namedBy_iff n.address u).symm,
    marksFound_iff hlist u, fun hu hplain => ?_⟩
  have hmarked {n : Node} (hn : n ∈ nodes) : (NodeView.of n u).current = true ↔
      Address.lookupKey n.url = Address.lookupKey u :=
    Address.sameUrl_iff_of_tidy ((hplain n hn).readable.isTidy_url (hplain n hn).blank) hu
  have honly {m n : Node} (hm : m ∈ nodes) (hn : n ∈ nodes)
      (hmkey : Address.lookupKey m.url = Address.lookupKey u)
      (hnkey : Address.lookupKey n.url = Address.lookupKey u) : m = n :=
    h.eq_of_address hlist hm hn
      ((hplain m hm).eq_of_lookupKey (hplain n hn) (hmkey.trans hnkey.symm))
  refine ⟨(marksFound_of_readNodes hlist u).mpr fun n hn => ?_, fun m hm n hn hm' hn' =>
    honly hm hn ((hmarked hm).mp hm') ((hmarked hn).mp hn')⟩
  rw [hmarked hn, found_iff hlist u hn]
  refine ⟨fun hkey => ⟨hkey, fun m hm hmkey => ?_⟩, And.left⟩
  rw [honly hm hn hmkey hkey]

/-- One node at the port of its scheme, and one at another and below a root. -/
def atTwoPorts : List Address := [⟨"http", "geo-2", 80, ""⟩, ⟨"https", "geo-3", 8443, "gitlab"⟩]

/-- The URL of an installation may be in other letters than that of its node, and lack the slash. -/
theorem marked_and_found_in_capitals :
    let s := registered atTwoPorts
    s.Reached ∧ s.MarksFound .epoch "https://GEO-3:8443/GitLab" ∧ ∃ n, n.id = 2 ∧
      (Call.findNodeByUrl "https://GEO-3:8443/GitLab").run .epoch s = (.ok (some n), s) := by
  intro s
  have hreached : s.Reached := reached_registered _
  obtain ⟨nodes, hlist, hboth, hagree, -⟩ :=
    hreached.marked_iff_found .epoch "https://GEO-3:8443/GitLab"
  have hnodes : s.readNodes .epoch = .ok (registeredNodes atTwoPorts) := by decide +kernel
  obtain rfl := Except.ok.inj ((run_listNodes_eq_iff.mp hlist).symm.trans hnodes)
  obtain ⟨n, hn, hid, hnamed, honly, hlowest⟩ : ∃ n ∈ registeredNodes atTwoPorts, n.id = 2 ∧
      n.address.NamedBy "https://GEO-3:8443/GitLab" ∧
      (∀ m ∈ registeredNodes atTwoPorts,
        (NodeView.of m "https://GEO-3:8443/GitLab").current = true → m = n) ∧
      ∀ m ∈ registeredNodes atTwoPorts, Address.lookupKey m.url =
        Address.lookupKey "https://GEO-3:8443/GitLab" → n.id ≤ m.id := by
    decide +kernel
  have hmarks := hagree.mpr (.inr ⟨n, hn, hnamed, honly, hlowest⟩)
  have hfound := (marksFound_of_readNodes hnodes _).mp hmarks n hn
  exact ⟨hreached, hmarks, n, hid, hfound.mp ((hboth n hn).mpr hnamed).1⟩

/-- **Two slashes at the end**: the node is shown as the one that answers, and none is found. -/
theorem marked_behind_two_slashes :
    let s := registered [⟨"http", "geo-2", 80, ""⟩]
    s.Reached ∧ (∃ nodes, Call.listNodes.run .epoch s = (.ok nodes, s) ∧
      ∃ n ∈ nodes, (NodeView.of n "http://geo-2//").current = true) ∧
      (Call.findNodeByUrl "http://geo-2//").run .epoch s = (.ok none, s) := by
  intro s
  have hlist : s.readNodes .epoch = .ok (registeredNodes [⟨"http", "geo-2", 80, ""⟩]) := by
    decide +kernel
  have hmarked : ∃ n ∈ registeredNodes [⟨"http", "geo-2", 80, ""⟩],
      (NodeView.of n "http://geo-2//").current = true := by decide +kernel
  have hnone : ((registeredNodes [⟨"http", "geo-2", 80, ""⟩]).find? fun n : Node =>
      Address.lookupKey n.url == Address.lookupKey "http://geo-2//") = none := by decide +kernel
  exact ⟨reached_registered _, ⟨_, run_listNodes_eq_iff.mpr hlist, hmarked⟩,
    (findNodeByUrl_iff hlist _).mpr hnone⟩

end Store

end GeoReplication
