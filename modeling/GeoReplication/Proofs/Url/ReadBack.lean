import GeoReplication.Model.Node
import GeoReplication.Proofs.Url.Spelled

/-!
# Proofs/Url/ReadBack — which addresses their URLs give back

    u ──parse?──▸ a ──url──▸ scheme ‖ :// ‖ host ‖ :port ‖ / ‖ root/ ──parse?──▸ a ?

What is read from a URL has no mark of its own in the scheme, no slash in the host and none around
the root (`readable_of_parse?`), so the printed URL is cut where it was put together, but for one
place: host and port are cut at the last colon, and a port that goes without saying is not printed.
The address comes back unless just then the host has a colon, as the literal address `[::1]` has;
what stands behind that is taken for the port (`reads_back_iff`).
-/

namespace GeoReplication

open Text

namespace Address

variable {a : Address} {u : String} {before after : List Char}

/-! ## What is read -/

/-- The parts of the address can be told apart in a URL. -/
structure Readable (a : Address) : Prop where
  scheme : splitOnce? [':', '/', '/'] a.scheme.toList = none
  slash : '/' ∉ a.host.toList
  host : a.host ≠ ""
  root : trimSlashes a.root.toList = a.root.toList

theorem readable_of_parse? (h : parse? u = some a) : a.Readable := by
  rw [parse?] at h
  split at h
  · cases h
  next scheme rest hscheme =>
  obtain ⟨authority, path, hpath, hslash, rfl⟩ := exists_path rest
  rw [hpath] at h
  dsimp only at h
  split at h
  · cases h
  next host port hport =>
  split at h
  · cases h
  next hhost =>
  obtain rfl := Option.some.inj h
  obtain ⟨text, -, rfl⟩ := exists_port hport
  refine ⟨?_, ?_, ?_, ?_⟩
  · rw [String.toList_ofList]
    exact splitOnce?_before (List.cons_ne_nil _ _) hscheme
  · rw [String.toList_ofList]
    exact fun hmem => hslash (List.mem_append_left _ hmem)
  · exact fun hempty => hhost (List.isEmpty_iff.mpr (String.ofList_eq_empty_iff.mp hempty))
  · rw [String.toList_ofList, trimSlashes, trimBoth_trimBoth]

/-! ## What is printed -/

/-- The mark behind a scheme does not overlap with itself, so it is found where it was put. -/
theorem splitOnce?_scheme : ∀ {scheme : List Char},
    splitOnce? [':', '/', '/'] scheme = none → ∀ rest : List Char,
      splitOnce? [':', '/', '/'] (scheme ++ ':' :: '/' :: '/' :: rest) = some (scheme, rest)
  | [], _, rest => by simp [splitOnce?, dropMark?]
  | c :: cs, h, rest => by
      rw [splitOnce?] at h
      split at h
      · cases h
      next hd =>
      have hd' : dropMark? [':', '/', '/'] (c :: (cs ++ ':' :: '/' :: '/' :: rest)) = none := by
        rcases cs with _ | ⟨d, _ | ⟨e, cs⟩⟩
        · simp [dropMark?]
        · simp [dropMark?]
        · simpa [dropMark?] using hd
      rw [List.cons_append, splitOnce?, hd']
      simp only [splitOnce?_scheme (Option.map_eq_none_iff.mp h) rest, Option.map_some]

theorem trimSlashes_rooted (path : List Char) : trimSlashes (rooted path) = trimSlashes path := by
  rw [rooted]
  split
  · next hroot =>
    rw [hroot]
    rfl
  · exact trimBoth_concat rfl (trimBoth_trimBoth _ _)

/-- **The URL is cut where it was put together**, but for host and port. -/
theorem Readable.parse?_url (h : a.Readable) : parse? a.url =
    (parseAuthority? a.scheme.toList (a.host.toList ++ a.printedPort)).bind fun (host, port) =>
      if host = [] then none else some { a with host := String.ofList host, port } := by
  have hslash : '/' ∉ a.host.toList ++ a.printedPort :=
    List.not_mem_append h.slash a.isPort_printedPort.notMem
  rw [parse?, toList_url, splitOnce?_scheme h.scheme]
  dsimp only
  rw [splitOnce?_append hslash, Option.getD_some]
  dsimp only
  rw [trimSlashes_rooted, h.root, String.ofList_toList, String.ofList_toList]
  cases parseAuthority? a.scheme.toList (a.host.toList ++ a.printedPort) with
  | none => rfl
  | some authority => simp only [List.isEmpty_iff, Option.bind_some]

/-! ## Host and port -/

theorem hasDefaultPort_iff : a.hasDefaultPort = true ↔
    a.scheme = "http" ∧ a.port = 80 ∨ a.scheme = "https" ∧ a.port = 443 := by
  simp [hasDefaultPort]

/-- A port that is left out is the one that is put in. -/
theorem parseAuthority?_of_notMem (hdefault : a.hasDefaultPort = true)
    (hcolon : ':' ∉ a.host.toList) :
    parseAuthority? a.scheme.toList a.host.toList = some (a.host.toList, a.port) := by
  simp only [parseAuthority?, splitLast?_eq_none_iff.mpr hcolon]
  rcases hasDefaultPort_iff.mp hdefault with ⟨hscheme, hport⟩ | ⟨hscheme, hport⟩
  · rw [hscheme, hport]
    rfl
  · rw [hscheme, hport]
    rfl

theorem parseAuthority?_append (scheme before : List Char) (hcolon : ':' ∉ after) :
    parseAuthority? scheme (before ++ ':' :: after) =
      (port? after).map fun port => (before, port) := by
  simp only [parseAuthority?, splitLast?_append hcolon]

theorem parseAuthority?_of_not_default (hdefault : ¬a.hasDefaultPort = true) :
    parseAuthority? a.scheme.toList (a.host.toList ++ a.printedPort) =
      some (a.host.toList, a.port) := by
  have hcolon : ':' ∉ digits a.port.toNat :=
    fun h => absurd (isDigit_of_mem_digits h) (by decide)
  rw [printedPort, if_neg hdefault, parseAuthority?_append _ _ hcolon,
    port?_digits (Nat.le_of_lt_succ a.port.toNat_lt), Option.map_some, UInt16.ofNat_toNat]

/-- **An address comes back from its URL** if its port is printed or its host has no colon. -/
theorem Readable.parse?_url_eq_self (h : a.Readable)
    (hplain : a.hasDefaultPort = true → ':' ∉ a.host.toList) : parse? a.url = some a := by
  have hauthority : parseAuthority? a.scheme.toList (a.host.toList ++ a.printedPort) =
      some (a.host.toList, a.port) := by
    by_cases hdefault : a.hasDefaultPort = true
    · rw [printedPort, if_pos hdefault, List.append_nil,
        parseAuthority?_of_notMem hdefault (hplain hdefault)]
    · exact parseAuthority?_of_not_default hdefault
  have hhost : a.host.toList ≠ [] := fun hnil => h.host (String.toList_eq_nil_iff.mp hnil)
  rw [h.parse?_url, hauthority, Option.bind_some]
  dsimp only
  rw [if_neg hhost, String.ofList_toList]

/-- **Otherwise the end of the host is read as the port**, if it is one. -/
theorem Readable.parse?_url_of_colon (h : a.Readable) (hdefault : a.hasDefaultPort = true)
    (hhost : a.host.toList = before ++ ':' :: after) (hcolon : ':' ∉ after) :
    parse? a.url = (port? after).bind fun port =>
      if before = [] then none else some { a with host := String.ofList before, port } := by
  rw [h.parse?_url, printedPort, if_pos hdefault, List.append_nil, hhost,
    parseAuthority?_append _ _ hcolon]
  cases port? after <;> rfl

/-- The last colon of a text. -/
theorem exists_last_colon {host : List Char} (h : ':' ∈ host) :
    ∃ before after, host = before ++ ':' :: after ∧ ':' ∉ after := by
  obtain ⟨⟨before, after⟩, hcut⟩ :=
    Option.ne_none_iff_exists'.mp fun hnone => splitLast?_eq_none_iff.mp hnone h
  refine ⟨before, after, append_of_splitLast? hcut, fun hmem => ?_⟩
  obtain ⟨⟨before', after'⟩, hs, he⟩ := Option.map_eq_some_iff.mp hcut
  obtain ⟨-, rfl⟩ := Prod.mk.inj he
  exact notMem_of_splitOnce? hs (List.mem_reverse.mp hmem)

theorem Readable.parse?_url_eq_self_iff (h : a.Readable) :
    parse? a.url = some a ↔ ¬(a.hasDefaultPort = true ∧ ':' ∈ a.host.toList) := by
  refine ⟨?_, fun hplain => h.parse?_url_eq_self fun hdefault hmem => hplain ⟨hdefault, hmem⟩⟩
  rintro hself ⟨hdefault, hmem⟩
  obtain ⟨before, after, hhost, hcolon⟩ := exists_last_colon hmem
  rw [h.parse?_url_of_colon hdefault hhost hcolon, Option.bind_eq_some_iff] at hself
  obtain ⟨port, -, hport⟩ := hself
  split at hport
  · cases hport
  -- the host that is read ends before the colon
  · have hshort := congrArg (fun a : Address => a.host.toList.length) (Option.some.inj hport)
    simp only [String.toList_ofList, hhost, List.length_append, List.length_cons] at hshort
    omega

end Address

namespace NewNode

variable {u : String} {role : NodeRole} {n : NewNode}

/-- **Which nodes come back from their URLs.**  A node is read from a URL and stands at an address;
the URL that is printed there is read again, in any role.  The address comes back just if the port
is printed or the host has no colon.  Otherwise what stands behind the last colon of the host is
read as the port: either it is none, and the URL is refused, or the address is another one. -/
theorem reads_back_iff (h : ofUrl? u role = some n) {x : Node} (hx : x.address = n.address)
    (role' : NodeRole) :
    ((∃ n', ofUrl? x.url role' = some n' ∧ n'.address = n.address) ↔
      ¬(n.address.hasDefaultPort = true ∧ ':' ∈ n.address.host.toList)) ∧
    ∀ before after, n.address.hasDefaultPort = true →
      n.address.host.toList = before ++ ':' :: after → ':' ∉ after →
      (ofUrl? x.url role').map NewNode.address = (Address.port? after).bind fun port =>
        if before = [] then none
        else some { n.address with host := String.ofList before, port } := by
  obtain ⟨a, ha, rfl⟩ := Option.map_eq_some_iff.mp h
  have hread := Address.readable_of_parse? ha
  have haddress : (ofUrl? x.url role').map NewNode.address = Address.parse? a.url := by
    rw [Node.url, hx, ofUrl?]
    cases Address.parse? a.url <;> rfl
  refine ⟨?_, fun before after hdefault hhost hcolon => ?_⟩
  · rw [← hread.parse?_url_eq_self_iff, ← haddress]
    exact Option.map_eq_some_iff.symm
  · rw [haddress]
    exact hread.parse?_url_of_colon hdefault hhost hcolon

/-- A secondary at an address. -/
def secondaryAt (a : Address) : Node := ⟨2, a, .secondary, true, [], 25, 10, .epoch, .epoch⟩

/-- A literal address comes back with a port of its own.  With two ports, the first is part of the
host, and is taken for the port where the second is not printed. -/
theorem reads_back_two_ports :
    (∃ n', ofUrl? (secondaryAt ⟨"http", "[::1]", 8080, "gitlab"⟩).url .primary = some n' ∧
      n'.address = ⟨"http", "[::1]", 8080, "gitlab"⟩) ∧
    (ofUrl? (secondaryAt ⟨"https", "geo-2:81", 443, ""⟩).url .primary).map NewNode.address =
      some ⟨"https", "geo-2", 81, ""⟩ := by
  have hliteral : ofUrl? "http://[::1]:8080//gitlab" .secondary =
      some ⟨⟨"http", "[::1]", 8080, "gitlab"⟩, .secondary, true, [], 25, 10⟩ := by decide +kernel
  have htwo : ofUrl? "https://geo-2:81:443" .secondary =
      some ⟨⟨"https", "geo-2:81", 443, ""⟩, .secondary, true, [], 25, 10⟩ := by decide +kernel
  refine ⟨(reads_back_iff hliteral (x := secondaryAt _) rfl .primary).1.mpr (by decide), ?_⟩
  rw [(reads_back_iff htwo (x := secondaryAt _) rfl .primary).2 ['g', 'e', 'o', '-', '2'] ['8', '1']
    (by decide) (by decide) (by decide)]
  decide +kernel

/-- The URL of a node at a literal address on the port of its scheme is refused. -/
theorem literal_address_refused : ∃ n, ofUrl? "http://[::1]:80/" .secondary = some n ∧
    ∀ x : Node, x.address = n.address → ∀ role, ofUrl? x.url role = none := by
  refine ⟨⟨⟨"http", "[::1]", 80, ""⟩, .secondary, true, [], 25, 10⟩, by decide +kernel, ?_⟩
  intro x hx role
  have hrefused : Address.parse? (Address.url ⟨"http", "[::1]", 80, ""⟩) = none := by decide +kernel
  rw [ofUrl?, Node.url, hx, hrefused, Option.map_none]

end NewNode

end GeoReplication
