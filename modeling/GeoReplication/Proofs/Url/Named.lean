import GeoReplication.Proofs.Url.Lookalike

/-!
# Proofs/Url/Named — two ways to compare URLs

    sameUrl    ── no slashes at the end, lower case
    lookupKey  ── no blanks around, lower case, a slash at the end

One comparison forgets how many slashes end a URL, the other forgets the blanks around it.  A URL
agrees with that of an address either way just if it is written as the address is printed, but for
letter case and a slash at the end, and ends in no blank (`namedBy_iff`).  Between URLs that have no
blanks around and end in one slash at most, the two ways are one (`sameUrl_iff_of_tidy`).
-/

namespace GeoReplication

namespace Text

variable {text xs ys : List Char}

/-! ## Both comparisons of texts -/

/-- What is trimmed off a text that ends in slashes. -/
theorem exists_slashes (text : List Char) : ∃ slashes, text = trimEnd (· == '/') text ++ slashes ∧
    ∀ c ∈ slashes, c = '/' :=
  ⟨text.rtakeWhile (· == '/'), List.rdropWhile_append_rtakeWhile.symm, fun _ hc =>
    eq_of_beq (List.mem_rtakeWhile_imp (p := (· == '/')) hc)⟩

/-- A text that ends in a slash has no blank at its end. -/
theorem closed_trimBlanks_concat (text : List Char) :
    closed (trimBlanks (text ++ ['/'])) = text.dropWhile isBlank ++ ['/'] := by
  have hfront : (text ++ ['/']).dropWhile isBlank = text.dropWhile isBlank ++ ['/'] :=
    dropWhile_append_cons (by decide) _ _
  rw [trimBlanks, trimBoth, hfront, trimEnd_append_cons (by decide)]
  exact closed_concat _

/-- A text that agrees with a longer one, once trimmed of blanks and with a slash at the end, lacks
the slash and nothing else. -/
theorem of_closed_trimBlanks {front : List Char} (hcolon : ':' ∈ text)
    (h : text.dropWhile isBlank ++ front ++ ['/'] = closed (trimBlanks text)) :
    front = [] ∧ trimEnd isBlank text = text ∧ closed text = text ++ ['/'] := by
  have hlength := congrArg List.length h
  have hmost := length_closed_le (trimBlanks text)
  have hless : (trimBlanks text).length ≤ (text.dropWhile isBlank).length := length_trimEnd_le _ _
  simp only [List.length_append, List.length_singleton] at hlength
  obtain rfl : front = [] := List.length_eq_zero_iff.mp (by omega)
  have hstays : trimEnd isBlank (text.dropWhile isBlank) = text.dropWhile isBlank := by
    refine trimEnd_eq_self_of_length ?_
    change _ ≤ (trimBlanks text).length
    omega
  rw [List.append_nil, trimBlanks, trimBoth, hstays] at h
  exact ⟨rfl, (trimEnd_dropWhile_eq_iff (by decide) hcolon).mp hstays,
    (closed_dropWhile_eq_iff (List.ne_nil_of_mem (mem_dropWhile (by decide) hcolon))).mp h.symm⟩

/-- **Trimmed of slashes and trimmed of blanks**, two texts agree only if they differ in a slash at
the end. -/
theorem closed_of_trimmed (hcolon : ':' ∈ xs)
    (hslashes : trimEnd (· == '/') (xs ++ ['/']) = trimEnd (· == '/') ys)
    (hblanks : closed (trimBlanks (xs ++ ['/'])) = closed (trimBlanks ys)) :
    trimEnd isBlank ys = ys ∧ closed ys = xs ++ ['/'] := by
  rw [trimEnd_concat rfl] at hslashes
  rw [closed_trimBlanks_concat] at hblanks
  obtain ⟨front, hxs, hfront⟩ := exists_slashes xs
  obtain ⟨back, hys, hback⟩ := exists_slashes ys
  have hmem : ':' ∈ trimEnd (· == '/') xs := mem_trimEnd (by decide) hcolon
  rw [hslashes] at hxs hmem
  generalize trimEnd (· == '/') ys = body at *
  subst hxs hys
  rw [dropWhile_append (by decide : isBlank ':' = false) hmem] at hblanks
  rcases List.eq_nil_or_concat back with rfl | ⟨back, c, rfl⟩
  · -- without a slash of its own, the other text gets the only one
    rw [List.append_nil] at hblanks ⊢
    obtain ⟨rfl, hstays, hslash⟩ := of_closed_trimBlanks hmem hblanks
    rw [List.append_nil]
    exact ⟨hstays, hslash⟩
  · -- with one, both have as many
    rw [List.concat_eq_append] at hback hblanks ⊢
    obtain rfl : c = '/' := hback c List.mem_concat_self
    rw [← List.append_assoc, closed_trimBlanks_concat,
      dropWhile_append (by decide : isBlank ':' = false) hmem] at hblanks
    obtain rfl : front = back :=
      List.append_cancel_left (List.append_cancel_right hblanks)
    rw [← List.append_assoc, trimEnd_append_cons (by decide), closed_concat]
    exact ⟨rfl, rfl⟩

/-- Texts that differ in a slash at the end agree either way. -/
theorem trimmed_of_closed (hcolon : ':' ∈ ys) (hblank : trimEnd isBlank ys = ys) :
    closed (trimBlanks (closed ys)) = closed (trimBlanks ys) := by
  by_cases hlast : ys.getLast? = some '/'
  · have hclosed : closed ys = ys := if_pos hlast
    rw [hclosed]
  · have hclosed : closed ys = ys ++ ['/'] := if_neg hlast
    have hne := List.ne_nil_of_mem (mem_dropWhile (by decide : isBlank ':' = false) hcolon)
    rw [hclosed, closed_trimBlanks_concat, trimBlanks, trimBoth,
      (trimEnd_dropWhile_eq_iff (by decide) hcolon).mpr hblank,
      (closed_dropWhile_eq_iff hne).mpr hclosed]

/-! ## Texts with a slash at the end at most -/

/-- The text has no blanks around it and does not end in two slashes. -/
def IsTidy (text : List Char) : Prop :=
  trimBlanks text = text ∧ ¬['/', '/'] <:+ text

instance (text : List Char) : Decidable (IsTidy text) := inferInstanceAs (Decidable (_ ∧ _))

/-- Closed, it has one slash behind what is left without slashes. -/
theorem closed_of_not_suffix (h : ¬['/', '/'] <:+ text) :
    closed text = trimEnd (· == '/') text ++ ['/'] := by
  have hstays {text : List Char} (hlast : text.getLast? ≠ some '/') :
      trimEnd (· == '/') text = text := by
    refine List.rdropWhile_eq_self_iff.mpr fun hne hslash => hlast ?_
    rw [List.getLast?_eq_some_getLast hne, eq_of_beq hslash]
  by_cases hlast : text.getLast? = some '/'
  · obtain ⟨before, rfl⟩ := List.getLast?_eq_some_iff.mp hlast
    have hbefore : before.getLast? ≠ some '/' := by
      intro hslash
      obtain ⟨front, rfl⟩ := List.getLast?_eq_some_iff.mp hslash
      exact h ⟨front, by simp⟩
    rw [closed_concat, trimEnd_concat rfl, hstays hbefore]
  · rw [hstays hlast]
    exact if_neg hlast

end Text

open Text

namespace Address

variable {a : Address} {t u : String}

/-! ## Both comparisons of URLs -/

theorem lookupKey_eq_closed (u : String) :
    lookupKey u = closed (trimBlanks (lower u.toList)) := by
  rw [trimBlanks, trimBoth_lower isBlank_toLower]
  rfl

theorem sameUrl_iff : sameUrl t u = true ↔
    trimEnd (· == '/') (lower t.toList) = trimEnd (· == '/') (lower u.toList) := by
  rw [sameUrl, beq_iff_eq, trimEnd_lower (toLower_beq (by decide)),
    trimEnd_lower (toLower_beq (by decide))]

/-- The URL is written as the address is printed, but for letter case and a slash at the end, and
ends in no blank. -/
def NamedBy (a : Address) (u : String) : Prop :=
  trimEnd isBlank u.toList = u.toList ∧ lower (closed u.toList) = lower a.url.toList

instance (a : Address) (u : String) : Decidable (a.NamedBy u) :=
  inferInstanceAs (Decidable (_ ∧ _))

/-- The printed URL without the slash at its end. -/
def bare (a : Address) : List Char :=
  a.scheme.toList ++ ':' :: '/' :: '/' :: (a.host.toList ++ a.printedPort ++
    if trimSlashes a.root.toList = [] then [] else '/' :: trimSlashes a.root.toList)

theorem toList_url_eq_bare (a : Address) : a.url.toList = a.bare ++ ['/'] := by
  rw [toList_url, bare, rooted]
  split <;> simp

theorem colon_mem_bare (a : Address) : ':' ∈ a.bare :=
  List.mem_append_right _ List.mem_cons_self

theorem namedBy_iff_lower : a.NamedBy u ↔
    trimEnd isBlank (lower u.toList) = lower u.toList ∧
      closed (lower u.toList) = lower a.url.toList := by
  rw [NamedBy, trimEnd_lower isBlank_toLower, closed_lower]
  refine and_congr_left' ⟨congrArg lower, fun h => trimEnd_eq_self_of_length ?_⟩
  exact (length_eq_of_lower h).ge

/-- **A URL agrees with that of an address either way** just if it is written as the address is
printed, but for letter case and a slash at the end. -/
theorem namedBy_iff (a : Address) (u : String) :
    a.NamedBy u ↔ sameUrl a.url u = true ∧ lookupKey a.url = lookupKey u := by
  have hslash : lower ['/'] = ['/'] := by decide
  have hcolon : ':' ∈ lower a.bare := List.mem_map.mpr ⟨':', a.colon_mem_bare, by decide⟩
  rw [namedBy_iff_lower, sameUrl_iff, lookupKey_eq_closed, lookupKey_eq_closed,
    toList_url_eq_bare, lower_append, hslash]
  constructor
  · rintro ⟨hblank, hclosed⟩
    have hmem : ':' ∈ lower u.toList := by
      have hu : ':' ∈ closed (lower u.toList) := hclosed ▸ List.mem_append_left _ hcolon
      rw [closed] at hu
      split at hu
      · exact hu
      · exact (List.mem_append.mp hu).resolve_right (by decide)
    rw [← hclosed]
    exact ⟨trimEnd_closed _, trimmed_of_closed hmem hblank⟩
  · rintro ⟨hslashes, hblanks⟩
    exact closed_of_trimmed hcolon hslashes hblanks

/-! ## Tidy URLs -/

/-- **For tidy URLs both ways are one.** -/
theorem sameUrl_iff_of_tidy (ht : IsTidy t.toList) (hu : IsTidy u.toList) :
    sameUrl t u = true ↔ lookupKey t = lookupKey u := by
  have hkey {t : String} (h : IsTidy t.toList) :
      lookupKey t = lower (trimEnd (· == '/') t.toList) ++ ['/'] := by
    have hclosed : lookupKey t = closed (lower (trimBlanks t.toList)) := rfl
    rw [hclosed, h.1, closed_lower, closed_of_not_suffix h.2, lower_append]
    rfl
  rw [sameUrl, beq_iff_eq, hkey ht, hkey hu, List.append_left_inj]

theorem Readable.getLast?_bare (h : a.Readable) : a.bare.getLast? ≠ some '/' := by
  intro hlast
  rw [bare] at hlast
  split at hlast
  -- without a root, host and port are last
  · have hne : a.host.toList ++ a.printedPort ≠ [] := fun hnil =>
      h.host (String.toList_eq_nil_iff.mp (List.append_eq_nil_iff.mp hnil).1)
    have hparts : a.scheme.toList ++ ':' :: '/' :: '/' :: (a.host.toList ++ a.printedPort) =
        (a.scheme.toList ++ [':', '/', '/']) ++ (a.host.toList ++ a.printedPort) := by simp
    rw [List.append_nil, hparts, List.getLast?_append_of_ne_nil _ hne] at hlast
    exact h.slash_authority (List.mem_of_getLast? hlast)
  · next hroot =>
    have hparts : a.scheme.toList ++ ':' :: '/' :: '/' :: (a.host.toList ++ a.printedPort ++
        '/' :: trimSlashes a.root.toList) =
        (a.scheme.toList ++ ':' :: '/' :: '/' :: (a.host.toList ++ a.printedPort) ++ ['/']) ++
          trimSlashes a.root.toList := by simp
    rw [hparts, List.getLast?_append_of_ne_nil _ hroot,
      List.getLast?_eq_some_getLast hroot] at hlast
    have hslash := Option.some.inj hlast
    exact List.rdropWhile_last_not (· == '/') _ hroot (beq_iff_eq.mpr hslash)

/-- The URL of an address is tidy, if no blank stands before the scheme. -/
theorem Readable.isTidy_url (h : a.Readable)
    (hblank : a.scheme.toList.dropWhile isBlank = a.scheme.toList) : IsTidy a.url.toList := by
  rw [toList_url_eq_bare]
  constructor
  · have hbare : a.bare.dropWhile isBlank = a.bare := by
      rw [bare, dropWhile_append_cons (by decide), hblank]
    rw [trimBlanks, trimBoth, dropWhile_append_cons (by decide), hbare,
      trimEnd_append_cons (by decide)]
    rfl
  · rintro ⟨front, hfront⟩
    refine h.getLast?_bare ?_
    have hlast : front ++ ['/'] ++ ['/'] = a.bare ++ ['/'] := by
      rw [← hfront, List.append_assoc]
      rfl
    have hbare : front ++ ['/'] = a.bare := List.append_cancel_right hlast
    rw [← hbare, List.getLast?_concat]

end Address

end GeoReplication
