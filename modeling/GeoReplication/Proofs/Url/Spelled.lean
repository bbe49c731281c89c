import GeoReplication.Config
import GeoReplication.Proofs.Text.Cuts
import GeoReplication.Url.Address

/-!
# Proofs/Url/Spelled — which URLs are found again

    u  ──parse?──▸  a  ──url──▸  a.url          u  ──lookupKey──▸  key  ◂──lookupKey──  a.url

Reading a URL forgets how its port was written and which slashes stood around its root; printing the
address drops a port that goes without saying.  The key under which URLs are compared forgets none
of that, but letter case, blanks around the URL and one slash at the end.  So the two sides meet
only if `u` is written as `a.url` is, up to that slash (`lookupKey_eq_iff`).  The URL that an
installation has if none is configured names its port, so on port 80 it is not
(`spelledBy_currentUrl`).
-/

namespace GeoReplication

open Text

namespace Address

/-- The URL is written as the address is printed, but for a slash at the end, and ends in no blank.
-/
def SpelledBy (a : Address) (u : String) : Prop :=
  trimEnd isBlank u.toList = u.toList ∧ closed u.toList = a.url.toList

instance (a : Address) (u : String) : Decidable (a.SpelledBy u) :=
  inferInstanceAs (Decidable (_ ∧ _))

/-! ## Ports -/

/-- A character of a port with its colon. -/
def IsPortChar (c : Char) : Prop := c.isDigit = true ∨ c = '+' ∨ c = ':'

namespace IsPortChar

variable {c : Char}

theorem isAlpha (h : IsPortChar c) : c.isAlpha = false := by
  rcases h with hdigit | rfl | rfl
  · -- digits come before letters of either case
    have hmost : c.val ≤ '9'.val := of_decide_eq_true (Bool.and_eq_true_iff.mp hdigit).2
    have hless : c.val < 'A'.val := UInt32.lt_of_le_of_lt hmost (by decide)
    have hless' : c.val < 'a'.val := UInt32.lt_of_le_of_lt hmost (by decide)
    have hupper : c.isUpper = false := decide_eq_false fun h => UInt32.not_le.mpr hless h.1
    have hlower : c.isLower = false :=
      Bool.and_eq_false_iff.mpr (.inl (decide_eq_false (UInt32.not_le.mpr hless')))
    exact Bool.or_eq_false_iff.mpr ⟨hupper, hlower⟩
  · rfl
  · rfl

theorem isBlank (h : IsPortChar c) : isBlank c = false := by
  rcases h with hdigit | rfl | rfl
  · simp only [Char.isDigit, Bool.and_eq_true, decide_eq_true_eq, UInt32.le_iff_toNat_le] at hdigit
    change 48 ≤ c.toNat ∧ c.toNat ≤ 57 at hdigit
    simp only [Text.isBlank, Bool.or_eq_false_iff, Bool.and_eq_false_iff, decide_eq_false_iff_not,
      beq_eq_false_iff_ne]
    omega
  · decide
  · decide

theorem ne_slash (h : IsPortChar c) : c ≠ '/' := by
  rintro rfl
  exact absurd h (by rintro (h | h | h) <;> exact absurd h (by decide))

end IsPortChar

/-- A port with the colon before it, or nothing. -/
def IsPort (port : List Char) : Prop :=
  port = [] ∨ ∃ number, port = ':' :: number ∧ ∀ c ∈ number, IsPortChar c

theorem isPort_digits (n : Nat) : IsPort (':' :: digits n) :=
  .inr ⟨_, rfl, fun _ hc => .inl (isDigit_of_mem_digits hc)⟩

/-- A number is written with digits, and a plus sign at most. -/
theorem isPort_of_unsigned? {max n : Nat} {number : List Char} (h : unsigned? max number = some n) :
    IsPort (':' :: number) := by
  have hdigits {cs : List Char} {n : Nat} (h : natural? cs = some n) : ∀ c ∈ cs, IsPortChar c := by
    intro c hc
    rw [natural?] at h
    split at h
    · next hall =>
      exact .inl (List.all_eq_true.mp (Bool.and_eq_true_iff.mp hall).2 c hc)
    · cases h
  refine .inr ⟨number, rfl, ?_⟩
  unfold unsigned? at h
  dsimp only at h
  split at h
  · next n hn =>
    split at hn
    · exact List.forall_mem_cons.mpr ⟨.inr (.inl rfl), hdigits hn⟩
    · exact hdigits hn
  · cases h

theorem unsigned?_digits {max n : Nat} (h : n ≤ max) : unsigned? max (digits n) = some n := by
  rw [unsigned?]
  · rw [natural?_digits]
    exact if_pos h
  · intro rest hplus
    have hmem : '+' ∈ digits n := by rw [hplus]; exact List.mem_cons_self
    exact absurd (isDigit_of_mem_digits hmem) (by decide)

theorem toNat_ofNat {n : Nat} (h : n ≤ maxPort) : (UInt16.ofNat n).toNat = n :=
  UInt16.toNat_ofNat_of_lt (Nat.lt_succ_of_le h)

theorem port?_digits {n : Nat} (h : n ≤ maxPort) : port? (digits n) = some (.ofNat n) := by
  rw [port?, unsigned?_digits h, Option.map_some]

variable {host port port' : List Char}

namespace IsPort

theorem chars (h : IsPort port) : ∀ c ∈ port, IsPortChar c := by
  obtain rfl | ⟨number, rfl, hnumber⟩ := h
  · exact fun _ hc => absurd hc List.not_mem_nil
  · exact List.forall_mem_cons.mpr ⟨.inr (.inr rfl), hnumber⟩

theorem notMem (h : IsPort port) : '/' ∉ port := fun hmem => (h.chars _ hmem).ne_slash rfl

/-- No letter is in a port. -/
theorem lower_eq (h : IsPort port) : lower port = port := lower_eq_self fun c hc =>
  (h.chars c hc).isAlpha

/-- No blank ends a port. -/
theorem trimEnd_eq (h : IsPort port) (hne : port ≠ []) (host : List Char) :
    trimEnd isBlank (host ++ port) = host ++ port := by
  obtain rfl | ⟨number, rfl, hnumber⟩ := h
  · exact absurd rfl hne
  · rw [trimEnd_append_cons (by decide), trimEnd_eq_self fun c hc => (hnumber c hc).isBlank]

/-- Ports that agree in lower case agree. -/
theorem eq_of_lower (h : IsPort port) (h' : IsPort port')
    (heq : lower (host ++ port) = lower (host ++ port')) : port = port' := by
  rw [lower_append, lower_append, h.lower_eq, h'.lower_eq] at heq
  exact List.append_cancel_left heq

/-- So they do after trimming, and then there was nothing to trim. -/
theorem eq_of_lower_trimEnd (h : IsPort port) (h' : IsPort port')
    (heq : lower (trimEnd isBlank (host ++ port)) = lower (host ++ port')) :
    trimEnd isBlank (host ++ port) = host ++ port ∧ port = port' := by
  have htrim : trimEnd isBlank (host ++ port) = host ++ port := by
    by_cases hport : port = []
    · refine trimEnd_eq_self_of_length ?_
      rw [length_eq_of_lower heq, hport, List.append_nil, List.length_append]
      exact Nat.le_add_right _ _
    · exact h.trimEnd_eq hport host
  rw [htrim] at heq
  exact ⟨htrim, h.eq_of_lower h' heq⟩

end IsPort

/-! ## Paths -/

/-- The path of a printed address: its root with a slash behind it. -/
def rooted (path : List Char) : List Char :=
  if trimSlashes path = [] then [] else trimSlashes path ++ ['/']

section Paths

variable {front root back : List Char}

/-- A path that has the key of a root does not begin with a slash, if the root does not. -/
theorem front_of_lower (hfront : ∀ c ∈ front, c = '/') (hroot : root ≠ [])
    (hhead : ∀ c ∈ root.head?, c ≠ '/')
    (h : lower (closed ('/' :: trimEnd isBlank (front ++ (root ++ back)))) =
      lower ('/' :: (root ++ ['/']))) : front = [] := by
  rcases front with _ | ⟨c, front⟩
  · rfl
  obtain rfl := hfront c List.mem_cons_self
  obtain ⟨r, root, rfl⟩ := List.exists_cons_of_ne_nil hroot
  obtain ⟨text, htext⟩ := exists_closed_cons '/' (trimEnd isBlank (front ++ (r :: root ++ back)))
  rw [List.cons_append, trimEnd_cons (by decide), ← List.singleton_append,
    closed_append _ (List.cons_ne_nil _ _), htext] at h
  have hsecond : '/'.toLower = r.toLower := (List.cons.inj (List.cons.inj h).2).1
  exact absurd ((toLower_eq_iff (by decide)).mp hsecond.symm) (hhead r rfl)

/-- Without slashes behind it, the root has nothing that is cut off. -/
theorem root_of_lower
    (h : lower (closed ('/' :: trimEnd isBlank root)) = lower ('/' :: (root ++ ['/']))) :
    trimEnd isBlank root = root ∧ closed ('/' :: root) = '/' :: (root ++ ['/']) := by
  have hlength := length_eq_of_lower h
  have hle := length_closed_le ('/' :: trimEnd isBlank root)
  simp only [List.length_cons, List.length_append] at hlength hle
  have htrim : trimEnd isBlank root = root := trimEnd_eq_self_of_length (by omega)
  refine ⟨htrim, ?_⟩
  rw [htrim] at hlength
  rw [closed] at hlength ⊢
  split
  · next hlast =>
    rw [if_pos hlast, List.length_cons] at hlength
    omega
  · rfl

/-- With slashes behind it, there is one. -/
theorem back_of_lower (hback : ∀ c ∈ back, c = '/') (hne : back ≠ [])
    (h : lower (closed ('/' :: trimEnd isBlank (root ++ back))) = lower ('/' :: (root ++ ['/']))) :
    trimEnd isBlank (root ++ back) = root ++ back ∧
      closed ('/' :: (root ++ back)) = '/' :: (root ++ ['/']) := by
  obtain ⟨slashes, c, rfl⟩ : ∃ slashes c, back = slashes ++ [c] :=
    ⟨_, _, (List.dropLast_append_getLast hne).symm⟩
  obtain rfl := hback c List.mem_concat_self
  have htrim : trimEnd isBlank (root ++ (slashes ++ ['/'])) = root ++ (slashes ++ ['/']) := by
    rw [← List.append_assoc, trimEnd_append_cons (by decide)]
    rfl
  have hclosed : closed ('/' :: (root ++ (slashes ++ ['/']))) =
      '/' :: (root ++ (slashes ++ ['/'])) := by
    rw [← List.append_assoc, ← List.cons_append, closed_concat]
  rw [htrim, hclosed] at h
  have hlength := length_eq_of_lower h
  simp only [List.length_cons, List.length_append] at hlength
  obtain rfl : slashes = [] := List.length_eq_zero_iff.mp (by omega)
  exact ⟨htrim, hclosed⟩

/-- **Paths**: one that has the key of the printed one is written like it. -/
theorem path_of_lower {path : List Char}
    (h : lower (closed ('/' :: trimEnd isBlank path)) = lower ('/' :: rooted path)) :
    trimEnd isBlank path = path ∧ closed ('/' :: path) = '/' :: rooted path := by
  obtain ⟨front, back, hpath, hfront, hback, hhead⟩ := exists_trimBoth (· == '/') path
  replace hfront : ∀ c ∈ front, c = '/' := fun c hc => eq_of_beq (hfront c hc)
  replace hback : ∀ c ∈ back, c = '/' := fun c hc => eq_of_beq (hback c hc)
  rw [rooted, trimSlashes] at h ⊢
  generalize trimBoth (· == '/') path = root at *
  by_cases hroot : root = []
  · -- nothing but slashes, so nothing at all
    rw [if_pos hroot] at h ⊢
    have hblank : ∀ c ∈ path, isBlank c = false := by
      intro c hc
      rw [hpath, hroot, List.nil_append] at hc
      obtain rfl : c = '/' := (List.mem_append.mp hc).elim (hfront c) (hback c)
      decide
    have hlength := length_eq_of_lower h
    have hle := le_length_closed ('/' :: path)
    rw [trimEnd_eq_self hblank] at hlength
    rw [hlength, List.length_singleton, List.length_cons] at hle
    obtain rfl : path = [] := List.length_eq_zero_iff.mp (by omega)
    exact ⟨rfl, rfl⟩
  · rw [if_neg hroot] at h ⊢
    subst hpath
    obtain rfl := front_of_lower hfront hroot (fun c hc => ne_of_beq_false (hhead c hc)) h
    by_cases hempty : back = []
    · subst hempty
      rw [List.nil_append, List.append_nil] at h ⊢
      exact root_of_lower h
    · exact back_of_lower hback hempty h

end Paths

/-! ## Host, port and path -/

section Authority

variable (hauthority : '/' ∉ host ++ port) (hslash : '/' ∉ host ++ port') (hport : IsPort port)
  (hport' : IsPort port')

include hauthority hslash hport hport'

/-- Without a path, host and port are written as they are printed. -/
theorem authority_of_lower
    (hkey : lower (closed ('/' :: trimEnd isBlank (host ++ port))) =
      lower ('/' :: (host ++ port' ++ ['/']))) :
    trimEnd isBlank (host ++ port) = host ++ port ∧
      closed ('/' :: (host ++ port)) = '/' :: (host ++ port' ++ ['/']) := by
  have hnone : '/' ∉ trimEnd isBlank (host ++ port) :=
    fun hmem => hauthority ((trimEnd_isPrefix _ _).subset hmem)
  have hne : trimEnd isBlank (host ++ port) ≠ [] := by
    intro hnil
    have hlength := length_eq_of_lower hkey
    rw [hnil, List.length_cons, List.length_append] at hlength
    exact absurd hlength (by simp [closed])
  rw [← List.nil_append (trimEnd isBlank (host ++ port)), closed_cons_append _ _ hne,
    closed_of_notMem hnone, lower_cons (by decide), lower_cons (by decide)] at hkey
  obtain ⟨hsame, -⟩ := lower_cut (by decide) hnone hslash (List.cons.inj hkey).2
  obtain ⟨htrim, rfl⟩ := hport.eq_of_lower_trimEnd hport' hsame
  refine ⟨htrim, ?_⟩
  rw [htrim] at hne
  rw [← List.nil_append (host ++ port), closed_cons_append _ _ hne, closed_of_notMem hslash]
  rfl

/-- With a path, so are host and port, and then the path. -/
theorem rooted_of_lower {path : List Char}
    (hkey : lower (closed ('/' :: trimEnd isBlank (host ++ port ++ '/' :: path))) =
      lower ('/' :: (host ++ port' ++ '/' :: rooted path))) :
    trimEnd isBlank (host ++ port ++ '/' :: path) = host ++ port ++ '/' :: path ∧
      closed ('/' :: (host ++ port ++ '/' :: path)) =
        '/' :: (host ++ port' ++ '/' :: rooted path) := by
  rw [trimEnd_append_cons (by decide)] at hkey ⊢
  rw [closed_cons_append _ _ (List.cons_ne_nil _ _)] at hkey ⊢
  obtain ⟨text, htext⟩ := exists_closed_cons '/' (trimEnd isBlank path)
  rw [htext, lower_cons (by decide), lower_cons (by decide)] at hkey
  obtain ⟨hsame, hpath⟩ := lower_cut (by decide) hauthority hslash (List.cons.inj hkey).2
  obtain rfl := hport.eq_of_lower hport' hsame
  have hlower : lower (closed ('/' :: trimEnd isBlank path)) = lower ('/' :: rooted path) := by
    rw [htext, lower_cons (by decide), lower_cons (by decide), hpath]
  obtain ⟨htrim, hclosed⟩ := path_of_lower hlower
  exact ⟨by rw [htrim], by rw [hclosed]⟩

end Authority

/-! ## Whole URLs -/

/-- What a URL is made of. -/
structure Pieces where
  scheme : List Char
  host : List Char
  /-- with the colon before it, or nothing -/
  port : List Char
  /-- what stands behind the first slash after the host, if there is one -/
  path : Option (List Char)

namespace Pieces

variable {p : Pieces}

/-- Host and port. -/
def authority (p : Pieces) : List Char := p.host ++ p.port

/-- What stands behind the scheme and its slashes. -/
def rest (p : Pieces) : List Char := p.authority ++ p.path.elim [] ('/' :: ·)

/-- The URL. -/
def text (p : Pieces) : List Char := p.scheme ++ ':' :: '/' :: '/' :: p.rest

/-- The pieces of the printed address, whose port is written as `port`. -/
def printed (p : Pieces) (port : List Char) : Pieces :=
  { p with port, path := some (rooted (p.path.getD [])) }

/-- The pieces are such as a URL is cut into. -/
structure Fit (p : Pieces) : Prop where
  authority : '/' ∉ p.authority
  port : IsPort p.port

theorem Fit.printed (h : p.Fit) (hport : IsPort port') : (p.printed port').Fit :=
  ⟨List.not_mem_append (fun hmem => h.authority (List.mem_append_left _ hmem)) hport.notMem, hport⟩

/-- **Behind the scheme**: what has the key of the printed address is written like it. -/
theorem Fit.rest_of_lower (h : p.Fit) (hport : IsPort port')
    (hkey : lower (closed ('/' :: trimEnd isBlank p.rest)) =
      lower ('/' :: (p.printed port').rest)) :
    trimEnd isBlank p.rest = p.rest ∧ closed ('/' :: p.rest) = '/' :: (p.printed port').rest := by
  obtain ⟨scheme, host, port, path⟩ := p
  have hslash : '/' ∉ host ++ port' := (h.printed hport).authority
  cases path with
  | none =>
    have hrest : (Pieces.mk scheme host port none).rest = host ++ port := List.append_nil _
    have hprinted : ((Pieces.mk scheme host port none).printed port').rest =
        host ++ port' ++ '/' :: [] := rfl
    rw [hrest, hprinted] at hkey ⊢
    exact authority_of_lower h.authority hslash h.port hport hkey
  | some path =>
    have hrest : (Pieces.mk scheme host port (some path)).rest = host ++ port ++ '/' :: path := rfl
    have hprinted : ((Pieces.mk scheme host port (some path)).printed port').rest =
        host ++ port' ++ '/' :: rooted path := rfl
    rw [hrest, hprinted] at hkey ⊢
    exact rooted_of_lower h.authority hslash h.port hport hkey

/-- The key of a URL, piece by piece. -/
theorem lookupKey_eq {u : String} (hu : u.toList = p.text) :
    lookupKey u = lower (p.scheme.dropWhile isBlank ++ [':', '/']) ++
      lower (closed ('/' :: trimEnd isBlank p.rest)) := by
  have hfront : (p.text).dropWhile isBlank =
      p.scheme.dropWhile isBlank ++ ':' :: '/' :: '/' :: p.rest :=
    dropWhile_append_cons (by decide) _ _
  change closed (lower (trimEnd isBlank (u.toList.dropWhile isBlank))) = _
  rw [hu, hfront, trimEnd_append_cons (by decide), trimEnd_cons (by decide),
    trimEnd_cons (by decide), closed_lower, ← lower_append,
    ← closed_append _ (List.cons_ne_nil _ _)]
  simp

theorem trimEnd_text : trimEnd isBlank p.text = p.text ↔ trimEnd isBlank p.rest = p.rest := by
  rw [text, trimEnd_append_cons (by decide), trimEnd_cons (by decide), trimEnd_cons (by decide)]
  simp

theorem closed_text : closed p.text = p.scheme ++ ':' :: '/' :: closed ('/' :: p.rest) := by
  have hsplit : p.text = (p.scheme ++ [':', '/']) ++ '/' :: p.rest := by simp [text]
  rw [hsplit, closed_append _ (List.cons_ne_nil _ _)]
  simp

/-- Behind the scheme, a printed address ends in a slash. -/
theorem printed_rest (p : Pieces) (port : List Char) :
    ∃ text, '/' :: (p.printed port).rest = text ++ ['/'] := by
  obtain ⟨scheme, host, -, path⟩ := p
  change ∃ text, '/' :: (host ++ port ++ '/' :: rooted (path.getD [])) = text ++ ['/']
  rw [rooted]
  split
  · exact ⟨'/' :: (host ++ port), rfl⟩
  · exact ⟨'/' :: (host ++ port ++ '/' :: trimSlashes (path.getD [])), by simp⟩

theorem trimEnd_printed (p : Pieces) (port : List Char) :
    trimEnd isBlank (p.printed port).rest = (p.printed port).rest := by
  obtain ⟨text, htext⟩ := p.printed_rest port
  have htrim : trimEnd isBlank ('/' :: (p.printed port).rest) = '/' :: (p.printed port).rest := by
    rw [htext, trimEnd_append_cons (by decide)]
    rfl
  rw [trimEnd_cons (by decide)] at htrim
  exact (List.cons.inj htrim).2

theorem closed_printed (p : Pieces) (port : List Char) :
    closed ('/' :: (p.printed port).rest) = '/' :: (p.printed port).rest := by
  obtain ⟨text, htext⟩ := p.printed_rest port
  rw [htext, closed_concat]

end Pieces

theorem rooted_trimSlashes (path : List Char) : rooted (trimSlashes path) = rooted path := by
  rw [rooted, rooted, trimSlashes, trimBoth_trimBoth]

/-- The port as it is printed. -/
def printedPort (a : Address) : List Char :=
  if a.hasDefaultPort then [] else ':' :: digits a.port.toNat

theorem isPort_printedPort (a : Address) : IsPort a.printedPort := by
  rw [printedPort]
  split
  · exact .inl rfl
  · exact isPort_digits a.port.toNat

theorem toList_url (a : Address) :
    a.url.toList = a.scheme.toList ++ ':' :: '/' :: '/' ::
      (a.host.toList ++ a.printedPort ++ '/' :: rooted a.root.toList) := by
  have hauthority : a.authority.toList = a.host.toList ++ a.printedPort := by
    rw [authority, printedPort]
    split
    · rw [List.append_nil]
    · rw [String.toList_append, String.toList_append, decimal, String.toList_ofList]
      simp [intDigits]
  rw [url, rooted, trimmedRoot]
  split
  · next hroot =>
    have hnil : trimSlashes a.root.toList = [] := String.ofList_eq_empty_iff.mp hroot
    rw [if_pos hnil]
    simp [hauthority]
  · next hroot =>
    have hne : trimSlashes a.root.toList ≠ [] := fun hnil => hroot (by rw [hnil])
    rw [if_neg hne]
    simp [hauthority]

/-- Where the authority ends. -/
theorem exists_path (rest : List Char) : ∃ (authority : List Char) (path : Option (List Char)),
    (splitOnce? ['/'] rest).getD (rest, []) = (authority, path.getD []) ∧ '/' ∉ authority ∧
      rest = authority ++ path.elim [] ('/' :: ·) := by
  cases hcut : splitOnce? ['/'] rest with
  | none => exact ⟨rest, none, rfl, notMem_of_splitOnce?_eq_none hcut, (List.append_nil _).symm⟩
  | some cut =>
    obtain ⟨authority, path⟩ := cut
    refine ⟨authority, some path, rfl, notMem_of_splitOnce? hcut, ?_⟩
    rw [append_of_splitOnce? hcut, List.append_assoc]
    rfl

/-- Where the host ends. -/
theorem exists_port {scheme authority host : List Char} {port : UInt16}
    (h : parseAuthority? scheme authority = some (host, port)) :
    ∃ text, IsPort text ∧ authority = host ++ text := by
  rw [parseAuthority?] at h
  split at h
  · next before number hcut =>
    obtain ⟨n, hport, he⟩ := Option.map_eq_some_iff.mp h
    obtain ⟨m, hm, -⟩ := Option.map_eq_some_iff.mp hport
    obtain ⟨rfl, -⟩ := Prod.mk.inj he
    exact ⟨':' :: number, isPort_of_unsigned? hm, append_of_splitLast? hcut⟩
  · obtain ⟨rfl, -⟩ := Prod.mk.inj (Option.some.inj h)
    exact ⟨[], .inl rfl, (List.append_nil _).symm⟩

/-- **A URL that can be read is made of pieces**, and so is the address that is read. -/
theorem exists_pieces {u : String} {a : Address} (h : parse? u = some a) :
    ∃ p : Pieces, p.Fit ∧ u.toList = p.text ∧ a.url.toList = (p.printed a.printedPort).text := by
  rw [parse?] at h
  split at h
  · cases h
  next scheme rest hscheme =>
  obtain ⟨authority, path, hpath, hslash, rfl⟩ := exists_path rest
  rw [hpath] at h
  dsimp only at h
  split at h
  · cases h
  next host port hport =>
  split at h
  · cases h
  obtain rfl := Option.some.inj h
  obtain ⟨text, htext, rfl⟩ := exists_port hport
  refine ⟨⟨scheme, host, text, path⟩, ⟨hslash, htext⟩, ?_, ?_⟩
  · rw [append_of_splitOnce? hscheme, List.append_assoc]
    rfl
  · rw [toList_url]
    simp only [String.toList_ofList, rooted_trimSlashes]
    rfl

/-- **The same key means the same spelling.**  A URL and the address that is read from it have one
key just if the URL is written as the address is printed, but for a slash at the end, and ends in no
blank. -/
theorem lookupKey_eq_iff {u : String} {a : Address} (h : parse? u = some a) :
    lookupKey u = lookupKey a.url ↔ a.SpelledBy u := by
  obtain ⟨p, hfit, hu, hurl⟩ := exists_pieces h
  rw [Pieces.lookupKey_eq hu, Pieces.lookupKey_eq hurl, SpelledBy, hu, hurl, p.trimEnd_printed,
    p.closed_printed, Pieces.trimEnd_text, Pieces.closed_text]
  constructor
  · intro hkey
    obtain ⟨htrim, hclosed⟩ := hfit.rest_of_lower a.isPort_printedPort
      (List.append_cancel_left hkey)
    exact ⟨htrim, by rw [hclosed]; rfl⟩
  · rintro ⟨htrim, hclosed⟩
    have hrest : closed ('/' :: p.rest) = '/' :: (p.printed a.printedPort).rest := by
      simpa [Pieces.text, Pieces.printed] using hclosed
    rw [htrim, hrest]
    rfl

/-- The root that is read is trimmed already. -/
theorem trimmed_of_parse? {u : String} {a : Address} (h : parse? u = some a) : a.trimmed = a := by
  rw [parse?] at h
  split at h
  · cases h
  dsimp only at h
  split at h
  · cases h
  split at h
  · cases h
  obtain rfl := Option.some.inj h
  rw [trimmed, trimmedRoot]
  simp only [String.toList_ofList, trimSlashes, trimBoth_trimBoth]

/-! ## The URL of an installation that has none configured -/

section CurrentUrl

variable {i : Installation}

theorem toList_currentUrl (hurl : i.nodeUrl = none) :
    i.currentUrl.toList = 'h' :: 't' :: 't' :: 'p' :: ':' :: '/' :: '/' ::
      ((i.host.toList ++ ':' :: digits i.port) ++ ['/']) := by
  rw [Installation.currentUrl, hurl]
  simp [Installation.socketText, decimal, intDigits]

theorem parse?_currentUrl (hurl : i.nodeUrl = none) (hhost : i.host ≠ "")
    (hslash : '/' ∉ i.host.toList) (hport : i.port ≤ maxPort) :
    parse? i.currentUrl = some ⟨"http", i.host, .ofNat i.port, ""⟩ := by
  have hcolon : ':' ∉ digits i.port := fun h => absurd (isDigit_of_mem_digits h) (by decide)
  have hauthority : '/' ∉ i.host.toList ++ ':' :: digits i.port :=
    List.not_mem_append hslash (isPort_digits i.port).notMem
  have hscheme : splitOnce? [':', '/', '/'] i.currentUrl.toList =
      some (['h', 't', 't', 'p'], (i.host.toList ++ ':' :: digits i.port) ++ ['/']) := by
    rw [toList_currentUrl hurl]
    rfl
  have hparse : parseAuthority? ['h', 't', 't', 'p'] (i.host.toList ++ ':' :: digits i.port) =
      some (i.host.toList, .ofNat i.port) := by
    rw [parseAuthority?, splitLast?_append hcolon]
    simp only [port?_digits hport, Option.map_some]
  rw [parse?, hscheme]
  dsimp only
  rw [splitOnce?_append hauthority, Option.getD_some]
  dsimp only
  rw [hparse]
  dsimp only
  rw [if_neg (by simpa using hhost), String.ofList_toList]
  rfl

/-- An installation without a configured URL is found under its own, unless it listens on port 80:
the URL names the port, and the node does not. -/
theorem spelledBy_currentUrl (hurl : i.nodeUrl = none) (hhost : i.host ≠ "")
    (hslash : '/' ∉ i.host.toList) (hport : i.port ≤ maxPort) :
    parse? i.currentUrl = some ⟨"http", i.host, .ofNat i.port, ""⟩ ∧
      (SpelledBy ⟨"http", i.host, .ofNat i.port, ""⟩ i.currentUrl ↔ i.port ≠ 80) := by
  refine ⟨parse?_currentUrl hurl hhost hslash hport, ?_⟩
  have htext := toList_currentUrl hurl
  have hprinted : (Address.url ⟨"http", i.host, .ofNat i.port, ""⟩).toList =
      'h' :: 't' :: 't' :: 'p' :: ':' :: '/' :: '/' ::
        ((i.host.toList ++ printedPort ⟨"http", i.host, .ofNat i.port, ""⟩) ++ ['/']) := by
    have hroot : rooted "".toList = [] := by decide
    rw [toList_url, hroot]
    simp
  have hnamed : printedPort ⟨"http", i.host, .ofNat i.port, ""⟩ =
      if i.port = 80 then [] else ':' :: digits i.port := by
    have heighty : UInt16.ofNat i.port = 80 ↔ i.port = 80 := by
      rw [← UInt16.toNat_inj, toNat_ofNat hport]
      rfl
    simp [printedPort, hasDefaultPort, -UInt16.toNat_ofNat', toNat_ofNat hport, heighty]
  obtain ⟨front, hfront⟩ : ∃ front, i.currentUrl.toList = front ++ ['/'] :=
    ⟨'h' :: 't' :: 't' :: 'p' :: ':' :: '/' :: '/' :: (i.host.toList ++ ':' :: digits i.port),
      htext⟩
  have htrim : trimEnd isBlank i.currentUrl.toList = i.currentUrl.toList := by
    rw [hfront, trimEnd_append_cons (by decide)]
    rfl
  have hclosed : closed i.currentUrl.toList = i.currentUrl.toList := by rw [hfront, closed_concat]
  rw [SpelledBy, htrim, hclosed, hprinted, htext, hnamed]
  by_cases heighty : i.port = 80 <;> simp [heighty]

end CurrentUrl

end Address

end GeoReplication
