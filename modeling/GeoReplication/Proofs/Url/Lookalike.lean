import GeoReplication.Proofs.Text.Numerals
import GeoReplication.Proofs.Url.ReadBack

/-!
# Proofs/Url/Lookalike — which addresses are looked up under one key

    lookupKey a.url  =  scheme ‖ :// ‖ host ‖ :port ‖ / ‖ root/   in lower case

Two addresses that were read from URLs have one key just if they agree in lower case as they are
printed: in scheme, in host and port together, and in root (`lookupKey_url_eq_iff`).  Host and port
are told apart only if the hosts have no colon.  So no two addresses that are written in lower case,
without a colon in the host and a blank before the scheme, have one key (`Plain.eq_of_lookupKey`).
-/

namespace GeoReplication

open Text

namespace Address

variable {a b : Address}

/-! ## The key of an address -/

/-- As they are printed in lower case, the addresses agree. -/
structure Resembles (a b : Address) : Prop where
  scheme : lower (a.scheme.toList.dropWhile isBlank) = lower (b.scheme.toList.dropWhile isBlank)
  authority : lower (a.host.toList ++ a.printedPort) = lower (b.host.toList ++ b.printedPort)
  root : lower (trimSlashes a.root.toList) = lower (trimSlashes b.root.toList)

theorem lookupKey_url (a : Address) :
    lookupKey a.url = lower (a.scheme.toList.dropWhile isBlank) ++ ':' :: '/' :: '/' ::
      lower (a.host.toList ++ a.printedPort ++ '/' :: rooted a.root.toList) := by
  let p : Pieces := ⟨a.scheme.toList, a.host.toList, [], some a.root.toList⟩
  have hurl : a.url.toList = (p.printed a.printedPort).text := toList_url a
  have hmark : lower [':', '/'] = [':', '/'] := by decide
  rw [Pieces.lookupKey_eq hurl, p.trimEnd_printed, p.closed_printed, lower_append, hmark,
    lower_cons (by decide), List.append_assoc]
  rfl

theorem trimSlashes_lower (text : List Char) :
    trimSlashes (lower text) = lower (trimSlashes text) :=
  trimBoth_lower (toLower_beq (by decide)) text

theorem lower_rooted_eq_iff {path path' : List Char} :
    lower (rooted path) = lower (rooted path') ↔
      lower (trimSlashes path) = lower (trimSlashes path') := by
  constructor
  · intro h
    rw [← trimSlashes_rooted, ← trimSlashes_lower, h, trimSlashes_lower, trimSlashes_rooted]
  · intro h
    have hempty : trimSlashes path = [] ↔ trimSlashes path' = [] := by
      rw [← List.length_eq_zero_iff, length_eq_of_lower h, List.length_eq_zero_iff]
    rw [rooted, rooted]
    by_cases hroot : trimSlashes path = []
    · rw [if_pos hroot, if_pos (hempty.mp hroot)]
    · rw [if_neg hroot, if_neg fun h => hroot (hempty.mpr h), lower_append, lower_append, h]

/-- The scheme of an address has no mark of its own in lower case either. -/
theorem Readable.lower_scheme (h : a.Readable) :
    splitOnce? [':', '/', '/'] (lower (a.scheme.toList.dropWhile isBlank)) = none := by
  have hmark : ∀ c ∈ [':', '/', '/'], c.isAlpha = false := by
    simp only [List.forall_mem_cons]
    exact ⟨rfl, rfl, rfl, fun _ hc => absurd hc List.not_mem_nil⟩
  exact splitOnce?_lower hmark (splitOnce?_dropWhile isBlank h.scheme)

theorem Readable.slash_authority (h : a.Readable) : '/' ∉ a.host.toList ++ a.printedPort :=
  List.not_mem_append h.slash a.isPort_printedPort.notMem

/-- **One key** means that the addresses agree as they are printed in lower case. -/
theorem lookupKey_url_eq_iff (ha : a.Readable) (hb : b.Readable) :
    lookupKey a.url = lookupKey b.url ↔ a.Resembles b := by
  rw [lookupKey_url, lookupKey_url]
  constructor
  · intro h
    have hcut := congrArg (splitOnce? [':', '/', '/']) h
    rw [splitOnce?_scheme ha.lower_scheme, splitOnce?_scheme hb.lower_scheme] at hcut
    obtain ⟨hscheme, hrest⟩ := Prod.mk.inj (Option.some.inj hcut)
    obtain ⟨hauthority, hroot⟩ :=
      lower_cut (by decide) ha.slash_authority hb.slash_authority hrest
    exact ⟨hscheme, hauthority, lower_rooted_eq_iff.mp hroot⟩
  · rintro ⟨hscheme, hauthority, hroot⟩
    rw [hscheme, lower_append, lower_append (b.host.toList ++ b.printedPort), hauthority,
      lower_cons (by decide), lower_cons (by decide), lower_rooted_eq_iff.mpr hroot]

/-! ## Host and port -/

/-- A port is what follows the first colon. -/
theorem eq_of_append_port {host host' port port' : List Char} (hhost : ':' ∉ host)
    (hhost' : ':' ∉ host') (hport : port = [] ∨ ∃ number, port = ':' :: number)
    (hport' : port' = [] ∨ ∃ number, port' = ':' :: number) (h : host ++ port = host' ++ port') :
    host = host' ∧ port = port' := by
  rcases hport with rfl | ⟨number, rfl⟩ <;> rcases hport' with rfl | ⟨number', rfl⟩
  · rw [List.append_nil, List.append_nil] at h
    exact ⟨h, rfl⟩
  · rw [List.append_nil] at h
    exact absurd (h ▸ List.mem_append_right _ List.mem_cons_self) hhost
  · rw [List.append_nil] at h
    exact absurd (h ▸ List.mem_append_right _ List.mem_cons_self) hhost'
  · obtain ⟨hsame, hnumber⟩ := eq_of_cut hhost hhost' h
    exact ⟨hsame, by rw [hnumber]⟩

theorem printedPort_cases (a : Address) :
    a.printedPort = [] ∨ ∃ number, a.printedPort = ':' :: number := by
  rw [printedPort]
  split
  · exact .inl rfl
  · exact .inr ⟨_, rfl⟩

/-- Without colons in the hosts, hosts and ports agree each for itself. -/
theorem lower_authority_eq_iff (ha : ':' ∉ a.host.toList) (hb : ':' ∉ b.host.toList) :
    lower (a.host.toList ++ a.printedPort) = lower (b.host.toList ++ b.printedPort) ↔
      lower a.host.toList = lower b.host.toList ∧ a.printedPort = b.printedPort := by
  rw [lower_append, lower_append, a.isPort_printedPort.lower_eq, b.isPort_printedPort.lower_eq]
  constructor
  · exact eq_of_append_port (notMem_lower (by decide) ha) (notMem_lower (by decide) hb)
      a.printedPort_cases b.printedPort_cases
  · rintro ⟨hhost, hport⟩
    rw [hhost, hport]

/-- With one scheme, ports that are printed alike are the same. -/
theorem port_eq_of_printedPort (hscheme : a.scheme = b.scheme)
    (hport : a.printedPort = b.printedPort) : a.port = b.port := by
  rw [printedPort, printedPort] at hport
  by_cases ha : a.hasDefaultPort = true <;> by_cases hb : b.hasDefaultPort = true
  · rcases hasDefaultPort_iff.mp ha with ⟨hsa, hpa⟩ | ⟨hsa, hpa⟩ <;>
      rcases hasDefaultPort_iff.mp hb with ⟨hsb, hpb⟩ | ⟨hsb, hpb⟩
    · rw [hpa, hpb]
    · rw [hsa, hsb] at hscheme
      exact absurd hscheme (by decide)
    · rw [hsa, hsb] at hscheme
      exact absurd hscheme (by decide)
    · rw [hpa, hpb]
  · rw [if_pos ha, if_neg hb] at hport
    cases hport
  · rw [if_neg ha, if_pos hb] at hport
    cases hport
  · rw [if_neg ha, if_neg hb] at hport
    exact UInt16.toNat_inj.mp (digits_injective (List.cons.inj hport).2)

/-! ## Addresses in lower case -/

/-- The address is written in lower case, without a colon in the host and a blank before the
scheme. -/
structure Plain (a : Address) : Prop where
  readable : a.Readable
  blank : a.scheme.toList.dropWhile isBlank = a.scheme.toList
  colon : ':' ∉ a.host.toList
  scheme : lower a.scheme.toList = a.scheme.toList
  host : lower a.host.toList = a.host.toList
  root : lower a.root.toList = a.root.toList

/-- **Plain addresses that have one key are one.** -/
theorem Plain.eq_of_lookupKey (ha : a.Plain) (hb : b.Plain)
    (h : lookupKey a.url = lookupKey b.url) : a = b := by
  obtain ⟨hscheme, hauthority, hroot⟩ := (lookupKey_url_eq_iff ha.readable hb.readable).mp h
  rw [ha.blank, hb.blank, ha.scheme, hb.scheme] at hscheme
  rw [ha.readable.root, hb.readable.root, ha.root, hb.root] at hroot
  obtain ⟨hhost, hport⟩ := (lower_authority_eq_iff ha.colon hb.colon).mp hauthority
  rw [ha.host, hb.host] at hhost
  have hscheme' : a.scheme = b.scheme := String.toList_injective hscheme
  obtain ⟨schemeA, hostA, portA, rootA⟩ := a
  obtain ⟨schemeB, hostB, portB, rootB⟩ := b
  obtain rfl : portA = portB := port_eq_of_printedPort hscheme' hport
  rw [Address.mk.injEq]
  exact ⟨hscheme', String.toList_injective hhost, rfl, String.toList_injective hroot⟩

end Address

end GeoReplication
