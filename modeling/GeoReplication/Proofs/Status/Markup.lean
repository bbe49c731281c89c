import GeoReplication.StatusReport
import Mathlib.Data.List.Infix

/-!
# Proofs/Status/Markup — a text without markup can be read back

    a & <b>   ──escape──▸   a &amp; &lt;b&gt;   ──unescape──▸   a & <b>

An escaped text has none of the characters of markup left but ampersands, and each of these begins
an entity (`isPlain_escape`).  So the entities can be told from what stands between them, and
putting back what they stand for gives the text again, whatever it was (`unescape_escape`).
-/

namespace GeoReplication.StatusReport

/-- The entities. -/
def entities : List (List Char) :=
  ["&amp;".toList, "&lt;".toList, "&gt;".toList, "&quot;".toList, "&#39;".toList]

/-- The text with its entities replaced by what they stand for. -/
def unescape : List Char → List Char
  | '&' :: 'a' :: 'm' :: 'p' :: ';' :: text => '&' :: unescape text
  | '&' :: 'l' :: 't' :: ';' :: text => '<' :: unescape text
  | '&' :: 'g' :: 't' :: ';' :: text => '>' :: unescape text
  | '&' :: 'q' :: 'u' :: 'o' :: 't' :: ';' :: text => '"' :: unescape text
  | '&' :: '#' :: '3' :: '9' :: ';' :: text => '\x27' :: unescape text
  | c :: text => c :: unescape text
  | [] => []

/-- The character means something in markup, apart from beginning an entity. -/
def IsMarkup (c : Char) : Prop := c = '<' ∨ c = '>' ∨ c = '"' ∨ c = '\x27'

instance (c : Char) : Decidable (IsMarkup c) :=
  inferInstanceAs (Decidable (c = '<' ∨ c = '>' ∨ c = '"' ∨ c = '\x27'))

/-- The text has no angle bracket and no quotation mark, and no ampersand but those that begin an
entity. -/
structure IsPlain (text : List Char) : Prop where
  markup (c : Char) : c ∈ text → ¬IsMarkup c
  ampersand (rest : List Char) : '&' :: rest <:+ text →
    ∃ entity ∈ entities, entity <+: '&' :: rest

variable {c d : Char} {text : List Char}

/-! ## One character -/

theorem unescape_cons (hc : c ≠ '&') (text : List Char) :
    unescape (c :: text) = c :: unescape text := by
  simp [unescape, hc]

/-- A character is replaced by an entity that stands for it, or means nothing and stays. -/
theorem escapeChar_cases (c : Char) :
    (escapeChar c ∈ entities ∧ ∀ text, unescape (escapeChar c ++ text) = c :: unescape text) ∨
      (c ≠ '&' ∧ ¬IsMarkup c ∧ escapeChar c = [c]) := by
  by_cases hc : c = '&' ∨ IsMarkup c
  · left
    rcases hc with rfl | rfl | rfl | rfl | rfl
    all_goals exact ⟨by decide, fun _ => rfl⟩
  · obtain ⟨hamp, hmarkup⟩ := not_or.mp hc
    obtain ⟨hless, hgreater, hquote, hapostrophe⟩ := by simpa only [IsMarkup, not_or] using hmarkup
    have hnat : c.toNat ≠ 0x27 := fun h => hapostrophe (Char.ext (UInt32.toNat_inj.mp h))
    refine .inr ⟨hamp, hmarkup, ?_⟩
    rw [escapeChar, if_neg hamp, if_neg hless, if_neg hgreater, if_neg hquote, if_neg hnat]

/-- Unescaping undoes what was done to one character. -/
theorem unescape_escapeChar (c : Char) (text : List Char) :
    unescape (escapeChar c ++ text) = c :: unescape text := by
  rcases escapeChar_cases c with ⟨-, hentity⟩ | ⟨hamp, -, hself⟩
  · exact hentity text
  · rw [hself, List.singleton_append, unescape_cons hamp]

/-- An entity has one ampersand, at its beginning. -/
theorem entity_eq_cons {entity : List Char} (h : entity ∈ entities) :
    ∃ tail, entity = '&' :: tail ∧ '&' ∉ tail ∧ '\n' ∉ tail ∧
      (tail.any fun c => decide (IsMarkup c)) = false := by
  simp only [entities, List.mem_cons, List.not_mem_nil, or_false] at h
  rcases h with rfl | rfl | rfl | rfl | rfl
  all_goals exact ⟨_, rfl, by decide, by decide, by decide⟩

/-! ## A text -/

/-- Where there is no ampersand, no part begins with one. -/
theorem suffix_of_notMem {xs ys rest : List Char} (hc : c ∉ xs) (h : c :: rest <:+ xs ++ ys) :
    c :: rest <:+ ys := by
  induction xs with
  | nil => exact h
  | cons x xs ih =>
    rcases List.suffix_cons_iff.mp h with heq | hrest
    · exact absurd ((List.cons.inj heq).1 ▸ List.mem_cons_self) hc
    · exact ih (List.not_mem_of_not_mem_cons hc) hrest

/-- **Unescaping undoes escaping.** -/
theorem unescape_escape (text : List Char) : unescape (escape text).toList = text := by
  rw [escape, String.toList_ofList]
  induction text with
  | nil => rfl
  | cons c text ih => rw [List.flatMap_cons, unescape_escapeChar, ih]

/-- **An escaped text has no markup.** -/
theorem isPlain_escape (text : List Char) : IsPlain (escape text).toList := by
  rw [escape, String.toList_ofList]
  constructor
  · intro c hc
    obtain ⟨d, -, hd⟩ := List.mem_flatMap.mp hc
    rcases escapeChar_cases d with ⟨hentity, -⟩ | ⟨-, hmarkup, hself⟩
    · obtain ⟨tail, heq, -, -, htail⟩ := entity_eq_cons hentity
      rw [heq] at hd
      rcases List.mem_cons.mp hd with rfl | hd
      · decide
      · simpa using List.any_eq_false.mp htail c hd
    · rw [hself, List.mem_singleton] at hd
      rwa [hd]
  · intro rest h
    induction text with
    | nil => cases List.suffix_nil.mp h
    | cons c text ih =>
      rw [List.flatMap_cons] at h
      rcases escapeChar_cases c with ⟨hentity, -⟩ | ⟨hamp, -, hself⟩
      · obtain ⟨tail, heq, htail, -⟩ := entity_eq_cons hentity
        rw [heq, List.cons_append] at h
        rcases List.suffix_cons_iff.mp h with hhere | hlater
        · exact ⟨'&' :: tail, heq ▸ hentity, hhere ▸ List.prefix_append _ _⟩
        · exact ih (suffix_of_notMem htail hlater)
      · rw [hself] at h
        exact ih (suffix_of_notMem (by simpa using hamp.symm) h)

/-- Escaping begins no line. -/
theorem notMem_escape (h : '\n' ∉ text) : '\n' ∉ (escape text).toList := by
  rw [escape, String.toList_ofList]
  intro hmem
  obtain ⟨d, hd, hin⟩ := List.mem_flatMap.mp hmem
  rcases escapeChar_cases d with ⟨hentity, -⟩ | ⟨-, -, hself⟩
  · obtain ⟨tail, heq, -, htail, -⟩ := entity_eq_cons hentity
    rw [heq] at hin
    rcases List.mem_cons.mp hin with hfirst | hin
    · exact absurd hfirst (by decide)
    · exact htail hin
  · rw [hself, List.mem_singleton] at hin
    exact h (hin ▸ hd)

end GeoReplication.StatusReport
