import GeoReplication.Json.Reader
import GeoReplication.Json.Writer
import Mathlib.Tactic.SplitIfs

/-!
# Proofs/Json/ReadBack — written values read back

    {"name":"a\"b","ids":[1,-2]}

Every character of a string is written as what the reader takes off as that character
(`readString_escape`), a whole number is followed by a mark that does not go on with it
(`readNumber_intDigits`), and behind an item or a member stands the separator or the closing
bracket the reader looks for there.  So a value is read wherever it was written (`readsAs_chars`),
and the text of a value is read as the value: `Document.read_text`.
-/

namespace GeoReplication.Json

open GeoReplication.Text

/-! ## Strings -/

theorem readString_letter {letter c : Char} (h : simpleEscape? letter = some c)
    (cs : List Char) :
    readString ('\\' :: letter :: cs) = (readString cs).map (·.push c) := by
  have hletter : letter ≠ 'u' := by
    rintro rfl
    cases h
  rw [readString, h]
  · exact fun _ _ _ _ _ _ _ _ _ hu => absurd hu hletter
  · exact fun _ _ _ _ _ hu => absurd hu hletter

/-- A character given by its code, whatever follows: another code is only looked at behind the
first half of a surrogate pair. -/
theorem readString_code {a b c d : Char} {n : Nat} (h : hexValue4? a b c d = some n)
    (hn : n < 0xD800) (cs : List Char) :
    readString ('\\' :: 'u' :: a :: b :: c :: d :: cs) =
      (readString cs).map (·.push (Char.ofNat n)) := by
  have hhigh : isHighSurrogate n = false := by
    simp only [isHighSurrogate, Bool.and_eq_false_iff, decide_eq_false_iff_not]
    omega
  have hlow : isLowSurrogate n = false := by
    simp only [isLowSurrogate, Bool.and_eq_false_iff, decide_eq_false_iff_not]
    omega
  by_cases hnext : ∃ a' b' c' d' cs', cs = '\\' :: 'u' :: a' :: b' :: c' :: d' :: cs'
  · obtain ⟨a', b', c', d', cs', rfl⟩ := hnext
    simp [readString, h, hhigh, hlow]
  · rw [readString, h]
    · simp [hhigh, hlow]
    · exact fun a' b' c' d' cs' hcs => hnext ⟨a', b', c', d', cs', hcs⟩

theorem readString_plain {c : Char} (hquote : c ≠ '"') (hbackslash : c ≠ '\\')
    (hcontrol : ¬ c.toNat < 0x20) (cs : List Char) :
    readString (c :: cs) = (readString cs).map (·.push c) := by
  rw [readString]
  · simp [hcontrol, hbackslash]
  · exact hquote
  · exact fun _ _ _ _ _ _ _ _ _ h => absurd h hbackslash
  · exact fun _ _ _ _ _ h => absurd h hbackslash
  · exact fun _ _ h => absurd h hbackslash

theorem hexValue4?_code : ∀ n < 0x20,
    hexValue4? '0' '0' (hexDigit (n / 16)) (hexDigit n) = some n := by decide

theorem readString_control {c : Char} (hc : c.toNat < 0x20) (cs : List Char) :
    readString ('\\' :: 'u' :: '0' :: '0' :: hexDigit (c.toNat / 16) :: hexDigit c.toNat :: cs) =
      (readString cs).map (·.push c) := by
  have hcode := readString_code (hexValue4?_code _ hc) (by omega) cs
  rwa [Char.ofNat_toNat] at hcode

/-- **A written character is read as itself.** -/
theorem readString_escape (c : Char) (cs : List Char) :
    readString (escape c ++ cs) = (readString cs).map (·.push c) := by
  rw [escape]
  split_ifs with hquote hbackslash hcontrol hn hr ht hb hf
  · exact readString_letter (by rw [hquote]; rfl) cs
  · exact readString_letter (by rw [hbackslash]; rfl) cs
  · exact readString_letter (by rw [hn]; rfl) cs
  · exact readString_letter (by rw [hr]; rfl) cs
  · exact readString_letter (by rw [ht]; rfl) cs
  · exact readString_letter (by rw [← Char.ofNat_toNat c, hb]; rfl) cs
  · exact readString_letter (by rw [← Char.ofNat_toNat c, hf]; rfl) cs
  · exact readString_control hcontrol cs
  · exact readString_plain hquote hbackslash hcontrol cs

/-- A string is read up to its closing quote. -/
theorem readString_flatMap_escape (text rest : List Char) :
    readString (text.flatMap escape ++ '"' :: rest) = some ⟨some text, rest⟩ := by
  induction text with
  | nil => rfl
  | cons c text ih =>
    rw [List.flatMap_cons, List.append_assoc, readString_escape, ih]
    rfl

/-! ## Numbers -/

/-- What may follow a value: a separator, a closing bracket or nothing. -/
inductive Ends : List Char → Prop where
  | text : Ends []
  | comma (cs : List Char) : Ends (',' :: cs)
  | bracket (cs : List Char) : Ends (']' :: cs)
  | brace (cs : List Char) : Ends ('}' :: cs)

variable {rest : List Char}

theorem exists_digits_eq (n : Nat) : ∃ c cs, digits n = c :: cs ∧ c.isDigit = true := by
  obtain ⟨c, cs, heq⟩ := List.exists_cons_of_ne_nil (digits_ne_nil n)
  exact ⟨c, cs, heq, isDigit_of_mem_digits (heq ▸ List.mem_cons_self)⟩

theorem head?_digits {n : Nat} (hn : 0 < n) : (digits n).head? ≠ some '0' := by
  induction n using Nat.strongRecOn with
  | ind n ih =>
    rw [digits, Nat.toDigits_eq_if (by decide)]
    split
    · next hlt =>
      have hall : ∀ i < 10, 0 < i → [i.digitChar].head? ≠ some '0' := by decide
      exact hall n hlt hn
    · next hge =>
      obtain ⟨c, cs, heq, -⟩ := exists_digits_eq (n / 10)
      have hfront := ih (n / 10) (by omega) (by omega)
      rw [heq] at hfront
      change ((digits (n / 10)) ++ _).head? ≠ _
      rwa [heq]

/-- Only zero begins with a zero. -/
theorem no_leading_zero (n : Nat) :
    ((digits n).head? == some '0' && (digits n).length != 1) = false := by
  cases n with
  | zero => rfl
  | succ n => simp [head?_digits (Nat.succ_pos n)]

theorem Ends.takeWhile_isDigit (hrest : Ends rest) (n : Nat) :
    (digits n ++ rest).takeWhile Char.isDigit = digits n := by
  rw [List.takeWhile_append_of_pos fun _ => isDigit_of_mem_digits]
  cases hrest <;> simp

theorem Ends.dropWhile_isDigit (hrest : Ends rest) (n : Nat) :
    (digits n ++ rest).dropWhile Char.isDigit = rest := by
  rw [List.dropWhile_append_of_pos fun _ => isDigit_of_mem_digits]
  cases hrest <;> simp

/-- Behind the sign, a number is its digits. -/
theorem readNumber_of_sign {cs : List Char} {negative : Bool} (m : Nat) (hrest : Ends rest)
    (hsign : (match cs with
      | '-' :: cs => (true, cs)
      | _ => (false, cs)) = (negative, digits m ++ rest)) :
    readNumber cs = some (⟨negative, digits m, [], none⟩, rest) := by
  have hend : (digits m).isEmpty = false := List.isEmpty_eq_false_iff.mpr (digits_ne_nil m)
  unfold readNumber
  split
  next hmatch =>
    obtain ⟨rfl, rfl⟩ := Prod.mk.inj (hmatch.symm.trans hsign)
    rw [hrest.takeWhile_isDigit, hrest.dropWhile_isDigit]
    simp only [hend, no_leading_zero, Bool.or_self, Bool.false_eq_true, if_false]
    cases hrest <;> rfl

theorem readNumber_intDigits (n : Int) (hrest : Ends rest) :
    readNumber (intDigits n ++ rest) =
      some (⟨decide (n < 0), digits n.natAbs, [], none⟩, rest) := by
  cases n with
  | ofNat m =>
    obtain ⟨c, cs, heq, hc⟩ := exists_digits_eq m
    refine readNumber_of_sign m hrest ?_
    rw [intDigits, heq, List.cons_append]
    split
    · next hminus =>
      obtain rfl := (List.cons.inj hminus).1
      exact absurd hc (by decide)
    · rfl
  | negSucc m =>
    refine readNumber_of_sign (m + 1) hrest ?_
    rw [decide_eq_true (Int.negSucc_lt_zero m)]
    rfl

theorem value?_intDigits {n : Int} (hmin : minId ≤ n) (hmax : n ≤ maxUnsigned) :
    (⟨decide (n < 0), digits n.natAbs, [], none⟩ : NumberText).value? = some (.whole n) := by
  have hread : Nat.ofDigitChars 10 (digits n.natAbs) 0 = n.natAbs :=
    Nat.ofDigitChars_toDigits (by decide) (by decide)
  have hfits : n.natAbs ≤ maxUnsigned := by
    simp only [minId, maxUnsigned] at *
    omega
  simp only [NumberText.value?, hread, hfits, List.isEmpty_nil, Option.isNone_none, Bool.and_self,
    decide_true, if_true]
  by_cases hneg : n < 0
  · have hlow : ¬ (n.natAbs = 0 ∨ Nat.pow 2 63 < n.natAbs) := by
      simp only [minId, Nat.pow_eq] at hmin ⊢
      omega
    have habs : -(n.natAbs : Int) = n := by omega
    rw [decide_eq_true hneg, Bool.not_true, if_neg Bool.false_ne_true, if_neg hlow, habs]
  · have habs : (n.natAbs : Int) = n := by omega
    rw [decide_eq_false hneg, Bool.not_false, if_pos rfl, habs]

/-! ## Values -/

/-- All numbers of the value are whole, of 64 bits. -/
inductive IsWhole : Json → Prop where
  | null : IsWhole .null
  | bool (b : Bool) : IsWhole (.bool b)
  | int {n : Int} (hmin : minId ≤ n) (hmax : n ≤ maxUnsigned) : IsWhole (.int n)
  | string (s : String) : IsWhole (.string s)
  | array {items : List Json} (h : ∀ j ∈ items, IsWhole j) : IsWhole (.array items)
  | object {members : List (String × Json)} (h : ∀ m ∈ members, IsWhole m.2) :
      IsWhole (.object members)

theorem isBroken_doc (j : Json) : j.doc.isBroken = false := by
  cases j <;> rfl

theorem skipGap_cons {c : Char} (h : isGap c = false) (cs : List Char) :
    skipGap (c :: cs) = c :: cs := by
  rw [skipGap, List.dropWhile_cons_of_neg (by simp [h])]

/-- What begins with neither a gap nor a bracket is a value without brackets. -/
theorem readValue_eq_readScalar {c : Char} (hgap : isGap c = false) (hbracket : c ≠ '[')
    (hbrace : c ≠ '\x7b') (fuel : Nat) (cs : List Char) :
    readValue (fuel + 1) (c :: cs) = readScalar (c :: cs) := by
  rw [readValue, skipGap_cons hgap]
  split
  · next h => exact absurd (List.cons.inj h).1 hbracket
  · next h => exact absurd (List.cons.inj h).1 hbrace
  · rfl

theorem readString_quoted (s : String) (rest : List Char) :
    ∃ cs, quoted s ++ rest = '"' :: cs ∧ readString cs = some ⟨some s.toList, rest⟩ := by
  refine ⟨s.toList.flatMap escape ++ '"' :: rest, ?_, readString_flatMap_escape _ _⟩
  simp [quoted]

theorem readScalar_quoted (s : String) (rest : List Char) :
    readScalar (quoted s ++ rest) = (.string s, rest) := by
  obtain ⟨cs, hcs, hread⟩ := readString_quoted s rest
  rw [hcs]
  simp [readScalar, hread]

theorem readKey_quoted (s : String) (rest : List Char) :
    readKey (skipGap (quoted s ++ rest)) = some (.name s, rest) := by
  obtain ⟨cs, hcs, hread⟩ := readString_quoted s rest
  rw [hcs, skipGap_cons rfl]
  simp [readKey, hread]

/-- A whole number begins with a sign or a digit. -/
theorem exists_intDigits_eq (n : Int) :
    ∃ c cs, intDigits n = c :: cs ∧ (c = '-' ∨ c.isDigit = true) := by
  cases n with
  | ofNat m =>
    obtain ⟨c, cs, heq, hc⟩ := exists_digits_eq m
    exact ⟨c, cs, heq, .inr hc⟩
  | negSucc m => exact ⟨'-', digits (m + 1), rfl, .inl rfl⟩

theorem ne_of_begins {c d : Char} (hc : c = '-' ∨ c.isDigit = true) (hminus : d ≠ '-')
    (hdigit : d.isDigit = false) : c ≠ d := by
  rintro rfl
  rcases hc with h | h
  · exact hminus h
  · rw [hdigit] at h
    cases h

theorem isGap_of_begins {c : Char} (hc : c = '-' ∨ c.isDigit = true) : isGap c = false := by
  simp only [isGap, Bool.or_eq_false_iff, beq_eq_false_iff_ne]
  refine ⟨⟨⟨?_, ?_⟩, ?_⟩, ?_⟩ <;> exact ne_of_begins hc (by decide) (by decide)

theorem readValue_intDigits {n : Int} (hmin : minId ≤ n) (hmax : n ≤ maxUnsigned) (fuel : Nat)
    (hrest : Ends rest) :
    readValue (fuel + 1) (intDigits n ++ rest) = (.number (.whole n), rest) := by
  obtain ⟨c, cs, hcs, hc⟩ := exists_intDigits_eq n
  have hread := readNumber_intDigits n hrest
  have hquote : c ≠ '"' := ne_of_begins hc (by decide) (by decide)
  rw [hcs, List.cons_append] at hread ⊢
  rw [readValue_eq_readScalar (isGap_of_begins hc) (ne_of_begins hc (by decide) (by decide))
    (ne_of_begins hc (by decide) (by decide))]
  simp [readScalar, hread, hc, hquote, value?_intDigits hmin hmax]

/-- A value begins with neither a gap nor the end of an array. -/
theorem IsWhole.begins {j : Json} (hj : j.IsWhole) :
    ∃ c cs, j.chars = c :: cs ∧ isGap c = false ∧ c ≠ ']' := by
  cases hj with
  | null => exact ⟨'n', _, rfl, rfl, by decide⟩
  | bool b => cases b <;> exact ⟨_, _, rfl, rfl, by decide⟩
  | @int n =>
    obtain ⟨c, cs, heq, hc⟩ := exists_intDigits_eq n
    exact ⟨c, cs, heq, isGap_of_begins hc, ne_of_begins hc (by decide) (by decide)⟩
  | string s => exact ⟨'"', _, rfl, rfl, by decide⟩
  | @array items => cases items <;> exact ⟨'[', _, rfl, rfl, by decide⟩
  | @object members => cases members <;> exact ⟨'\x7b', _, rfl, rfl, by decide⟩

theorem IsWhole.length_pos {j : Json} (hj : j.IsWhole) : 0 < j.chars.length := by
  obtain ⟨c, cs, heq, -⟩ := hj.begins
  exact heq ▸ Nat.succ_pos _

theorem ends_itemsRest : ∀ (items : List Json) (rest : List Char), Ends (itemsRest items ++ rest)
  | [], rest => .bracket rest
  | _ :: _, _ => .comma _

theorem ends_membersRest :
    ∀ (members : List (String × Json)) (rest : List Char), Ends (membersRest members ++ rest)
  | [], rest => .brace rest
  | _ :: _, _ => .comma _

variable {fuel : Nat} {cs : List Char} {closed : Bool}

theorem readValue_of_readItems {c : Char} {items : List Doc} (hgap : isGap c = false)
    (hbracket : c ≠ ']') (hread : readItems fuel (c :: cs) = (items, closed, rest)) :
    readValue (fuel + 1) ('[' :: c :: cs) = (.array items closed, rest) := by
  rw [readValue, skipGap_cons rfl]
  simp only [skipGap_cons hgap]
  split
  · next h => exact absurd (List.cons.inj h).1 hbracket
  · rw [hread]

theorem readValue_of_readMembers {k : String} {members : List (Key × Doc)}
    (hread : readMembers fuel (quoted k ++ cs) = (members, closed, rest)) :
    readValue (fuel + 1) ('\x7b' :: (quoted k ++ cs)) = (.object members closed, rest) := by
  rw [quoted, List.cons_append] at hread ⊢
  rw [readValue, skipGap_cons rfl]
  simp only [skipGap_cons (show isGap '"' = false from rfl)]
  split
  · next h => exact absurd (List.cons.inj h).1 (by decide)
  · rw [hread]

/-- Wherever `text` stands as a value it is read as `d`. -/
def ReadsAs (text : List Char) (d : Doc) : Prop :=
  ∀ {fuel : Nat} {rest : List Char}, text.length ≤ fuel → Ends rest →
    readValue fuel (text ++ rest) = (d, rest)

mutual

/-- **A written value is read as itself.** -/
theorem readsAs_chars : ∀ j : Json, j.IsWhole → ReadsAs j.chars j.doc
  | j, hj, 0, _, hfuel, _ => absurd hfuel (Nat.not_le.mpr hj.length_pos)
  | .null, _, _ + 1, _, _, _ => rfl
  | .bool true, _, _ + 1, _, _, _ => rfl
  | .bool false, _, _ + 1, _, _, _ => rfl
  | .number _, .int hmin hmax, fuel + 1, _, _, hrest => readValue_intDigits hmin hmax fuel hrest
  | .string s, _, _ + 1, rest, _, _ => readScalar_quoted s rest
  | .array [], _, _ + 1, _, _, _ => rfl
  | .array (j :: js), .array hitems, fuel + 1, rest, hfuel, _ => by
      simp only [chars, List.length_cons, List.length_append] at hfuel
      have hj : j.IsWhole := hitems j List.mem_cons_self
      have hread : readItems fuel (chars j ++ (itemsRest js ++ rest)) =
          (docs (j :: js), true, rest) :=
        readItems_itemsRest js (fun i hi => hitems i (List.mem_cons_of_mem _ hi))
          (readsAs_chars j hj) j.isBroken_doc rest (by omega)
      obtain ⟨c, cs, hcs, hgap, hbracket⟩ := hj.begins
      rw [hcs] at hread
      rw [chars, List.cons_append, List.append_assoc, hcs]
      exact readValue_of_readItems hgap hbracket hread
  | .object [], _, _ + 1, _, _, _ => rfl
  | .object ((k, j) :: ms), .object hmembers, fuel + 1, rest, hfuel, _ => by
      simp only [chars, List.length_cons, List.length_append] at hfuel
      have hread : readMembers fuel (quoted k ++ ':' :: (chars j ++ (membersRest ms ++ rest))) =
          (docMembers ((k, j) :: ms), true, rest) :=
        readMembers_membersRest ms k (fun m hm => hmembers m (List.mem_cons_of_mem _ hm))
          (readsAs_chars j (hmembers _ List.mem_cons_self)) j.isBroken_doc rest (by omega)
      rw [chars, List.cons_append, List.append_assoc, List.cons_append, List.append_assoc]
      exact readValue_of_readMembers hread

/-- Behind an item stand the other items. -/
theorem readItems_itemsRest : ∀ (js : List Json) {fuel : Nat} {item : List Char} {d : Doc},
    (∀ j ∈ js, j.IsWhole) → ReadsAs item d → d.isBroken = false → ∀ rest : List Char,
      item.length + (itemsRest js).length ≤ fuel →
        readItems fuel (item ++ (itemsRest js ++ rest)) = (d :: docs js, true, rest)
  | [], 0, _, _, _, _, _, _, hfuel => absurd hfuel (Nat.not_succ_le_zero _)
  | _ :: _, 0, _, _, _, _, _, _, hfuel => absurd hfuel (Nat.not_succ_le_zero _)
  | [], fuel + 1, item, d, _, hitem, hd, rest, hfuel => by
      rw [readItems, hitem (Nat.le_of_succ_le_succ hfuel) (ends_itemsRest [] rest)]
      simp only [hd]
      rfl
  | j :: js, fuel + 1, item, d, hjs, hitem, hd, rest, hfuel => by
      simp only [itemsRest, List.length_cons, List.length_append] at hfuel
      have hitems : readItems fuel (chars j ++ (itemsRest js ++ rest)) =
          (docs (j :: js), true, rest) :=
        readItems_itemsRest js (fun i hi => hjs i (List.mem_cons_of_mem _ hi))
          (readsAs_chars j (hjs j List.mem_cons_self)) j.isBroken_doc rest (by omega)
      rw [readItems, hitem (by omega) (ends_itemsRest (j :: js) rest)]
      simp only [hd, itemsRest, List.cons_append, List.append_assoc,
        skipGap_cons (show isGap ',' = false from rfl), hitems]
      rfl

/-- Behind a member stand the other members. -/
theorem readMembers_membersRest : ∀ (ms : List (String × Json)) (k : String) {fuel : Nat}
    {item : List Char} {d : Doc},
    (∀ m ∈ ms, m.2.IsWhole) → ReadsAs item d → d.isBroken = false → ∀ rest : List Char,
      (quoted k).length + (item.length + (membersRest ms).length + 1) ≤ fuel →
        readMembers fuel (quoted k ++ ':' :: (item ++ (membersRest ms ++ rest))) =
          ((.name k, d) :: docMembers ms, true, rest)
  | _, _, 0, _, _, _, _, _, _, hfuel => absurd hfuel (Nat.not_succ_le_zero _)
  | [], k, fuel + 1, item, d, _, hitem, hd, rest, hfuel => by
      rw [readMembers, readKey_quoted]
      simp only [skipGap_cons (show isGap ':' = false from rfl)]
      rw [hitem (by omega) (ends_membersRest [] rest)]
      simp only [hd]
      rfl
  | (k', j) :: ms, k, fuel + 1, item, d, hms, hitem, hd, rest, hfuel => by
      simp only [membersRest, List.length_cons, List.length_append] at hfuel
      have hmembers : readMembers fuel (quoted k' ++ ':' :: (chars j ++ (membersRest ms ++ rest))) =
          (docMembers ((k', j) :: ms), true, rest) :=
        readMembers_membersRest ms k' (fun m hm => hms m (List.mem_cons_of_mem _ hm))
          (readsAs_chars j (hms _ List.mem_cons_self)) j.isBroken_doc rest (by omega)
      rw [readMembers, readKey_quoted]
      simp only [skipGap_cons (show isGap ':' = false from rfl)]
      rw [hitem (by omega) (ends_membersRest ((k', j) :: ms) rest)]
      simp only [hd, membersRest, List.cons_append, List.append_assoc,
        skipGap_cons (show isGap ',' = false from rfl), hmembers]
      rfl

end

/-- **The text of a value is read as the value.** -/
theorem Document.read_text {j : Json} (hj : j.IsWhole) : Document.read j.text = ⟨j.doc, false⟩ := by
  have hread : readValue (2 * j.chars.length + 1) j.chars = (j.doc, []) := by
    have hchars := readsAs_chars j hj (show j.chars.length ≤ 2 * j.chars.length + 1 by omega) .text
    rwa [List.append_nil] at hchars
  rw [Document.read, text, String.toList_ofList, hread]
  rfl

end GeoReplication.Json
