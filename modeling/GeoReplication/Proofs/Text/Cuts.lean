import GeoReplication.Text.Decimal
import Mathlib.Data.List.DropRight

/-!
# Proofs/Text/Cuts — what trimming, cutting and lower case leave of a text

Trimming at the end stops at the first character that stays, so what stands before it does not
matter (`trimEnd_append_cons`).  A cut at the first mark leaves no mark before it, and cuts at all
marks give back parts that were joined by them (`splitAll_joinWith`).  Lower case moves
letters only: it keeps the length of a text, and every character that is no letter where it is, so
two texts that agree in lower case have their slashes in the same places (`lower_cut`).  A text is
trimmed and cut alike before and after.
-/

namespace GeoReplication.Text

variable {p : Char → Bool} {c d mark : Char} {text before after xs ys : List Char}

/-! ## Trimming -/

theorem dropWhile_append_cons (hc : p c = false) (xs ys : List Char) :
    (xs ++ c :: ys).dropWhile p = xs.dropWhile p ++ c :: ys := by
  induction xs with
  | nil => rw [List.nil_append, List.dropWhile_cons_of_neg (by simp [hc]), List.dropWhile_nil,
      List.nil_append]
  | cons x xs ih =>
    rw [List.cons_append, List.dropWhile_cons, List.dropWhile_cons, ih]
    split <;> rfl

/-- Trimming at the end stops at a character that stays. -/
theorem trimEnd_append_cons (hc : p c = false) (xs ys : List Char) :
    trimEnd p (xs ++ c :: ys) = xs ++ c :: trimEnd p ys := by
  have hreverse : (xs ++ c :: ys).reverse = ys.reverse ++ c :: xs.reverse := by simp
  rw [trimEnd, hreverse, dropWhile_append_cons hc, trimEnd]
  simp

theorem trimEnd_cons (hc : p c = false) (text : List Char) :
    trimEnd p (c :: text) = c :: trimEnd p text := trimEnd_append_cons hc [] text

theorem trimEnd_isPrefix (p : Char → Bool) (text : List Char) : trimEnd p text <+: text :=
  List.rdropWhile_prefix p text

theorem length_trimEnd_le (p : Char → Bool) (text : List Char) :
    (trimEnd p text).length ≤ text.length := (trimEnd_isPrefix p text).length_le

theorem trimEnd_eq_self_of_length (h : text.length ≤ (trimEnd p text).length) :
    trimEnd p text = text :=
  (trimEnd_isPrefix p text).eq_of_length (Nat.le_antisymm (length_trimEnd_le p text) h)

theorem trimEnd_eq_self (h : ∀ c ∈ text, p c = false) : trimEnd p text = text := by
  refine List.rdropWhile_eq_self_iff.mpr fun hne => ?_
  rw [h _ (List.getLast_mem hne)]
  exact Bool.false_ne_true

/-- A character that goes is cut off the end. -/
theorem trimEnd_concat (hc : p c = true) (xs : List Char) :
    trimEnd p (xs ++ [c]) = trimEnd p xs := by
  rw [trimEnd, List.reverse_concat, List.dropWhile_cons_of_pos hc, trimEnd]

theorem mem_trimEnd (hc : p c = false) (h : c ∈ text) : c ∈ trimEnd p text := by
  obtain ⟨before, after, rfl⟩ := List.append_of_mem h
  rw [trimEnd_append_cons hc]
  exact List.mem_append_right _ List.mem_cons_self

theorem mem_dropWhile (hc : p c = false) (h : c ∈ text) : c ∈ text.dropWhile p := by
  obtain ⟨before, after, rfl⟩ := List.append_of_mem h
  rw [dropWhile_append_cons hc]
  exact List.mem_append_right _ List.mem_cons_self

/-- Where something stays, trimming does not come to what stands before. -/
theorem trimEnd_append (xs : List Char) (hc : p c = false) (h : c ∈ ys) :
    trimEnd p (xs ++ ys) = xs ++ trimEnd p ys := by
  obtain ⟨before, after, rfl⟩ := List.append_of_mem h
  rw [← List.append_assoc, trimEnd_append_cons hc, trimEnd_append_cons hc, List.append_assoc]

theorem dropWhile_append (hc : p c = false) (h : c ∈ xs) (ys : List Char) :
    (xs ++ ys).dropWhile p = xs.dropWhile p ++ ys := by
  obtain ⟨before, after, rfl⟩ := List.append_of_mem h
  rw [List.append_assoc, List.cons_append, dropWhile_append_cons hc, dropWhile_append_cons hc,
    List.append_assoc, List.cons_append]

/-- What is cut off the front has no part in whether the end stays. -/
theorem trimEnd_dropWhile_eq_iff (hc : p c = false) (h : c ∈ text) :
    trimEnd p (text.dropWhile p) = text.dropWhile p ↔ trimEnd p text = text := by
  have htext : text.takeWhile p ++ text.dropWhile p = text := List.takeWhile_append_dropWhile
  have hend := trimEnd_append (text.takeWhile p) hc (mem_dropWhile hc h)
  rw [htext] at hend
  constructor
  · intro hstays
    rw [hend, hstays, htext]
  · intro hstays
    exact List.append_cancel_left (hend.symm.trans (hstays.trans htext.symm))

theorem dropWhile_trimBoth (p : Char → Bool) (text : List Char) :
    (trimBoth p text).dropWhile p = trimBoth p text := by
  refine List.dropWhile_eq_self_iff.mpr fun hlength => ?_
  have hprefix : trimBoth p text <+: text.dropWhile p := List.rdropWhile_prefix p _
  have hne : text.dropWhile p ≠ [] :=
    List.ne_nil_of_length_pos (hlength.trans_le hprefix.length_le)
  have hhead := List.IsPrefix.getElem hprefix hlength
  rw [hhead, List.getElem_zero, List.head_dropWhile_not p hne]
  exact Bool.false_ne_true

/-- What was trimmed at both ends stays as it is. -/
theorem trimBoth_trimBoth (p : Char → Bool) (text : List Char) :
    trimBoth p (trimBoth p text) = trimBoth p text := by
  rw [trimBoth, dropWhile_trimBoth]
  exact List.rdropWhile_idempotent p _

/-- So it does with one more character that goes behind it. -/
theorem trimBoth_concat (hc : p c = true) (h : trimBoth p text = text) :
    trimBoth p (text ++ [c]) = text := by
  rcases eq_or_ne text [] with rfl | hne
  · rw [trimBoth, List.nil_append, List.dropWhile_cons_of_pos hc]
    rfl
  · have hfront : text.dropWhile p = text := by rw [← h, dropWhile_trimBoth]
    rw [trimBoth, List.dropWhile_append, hfront, if_neg (by simpa using hne), trimEnd_concat hc]
    rwa [trimBoth, hfront] at h

/-- What is trimmed at both ends stands between characters that go, and begins with one that stays.
-/
theorem exists_trimBoth (p : Char → Bool) (text : List Char) : ∃ front back,
    text = front ++ (trimBoth p text ++ back) ∧ (∀ c ∈ front, p c = true) ∧
      (∀ c ∈ back, p c = true) ∧ ∀ c ∈ (trimBoth p text).head?, p c = false := by
  have hback : trimBoth p text ++ (text.dropWhile p).rtakeWhile p = text.dropWhile p :=
    List.rdropWhile_append_rtakeWhile
  refine ⟨text.takeWhile p, (text.dropWhile p).rtakeWhile p, ?_, fun c => List.mem_takeWhile_imp,
    fun c => List.mem_rtakeWhile_imp, fun c hc => ?_⟩
  · rw [hback, List.takeWhile_append_dropWhile]
  · have hhead := List.head?_dropWhile_not p text
    rw [← hback, List.mem_head?_append_of_mem_head? hc] at hhead
    exact hhead

/-! ## Cutting -/

theorem dropMark?_append : ∀ mark rest : List Char, dropMark? mark (mark ++ rest) = some rest
  | [], _ => by simp [dropMark?]
  | m :: ms, rest => by
      rw [List.cons_append, dropMark?, if_pos rfl, dropMark?_append ms rest]

/-- Before the first mark there is none. -/
theorem notMem_of_splitOnce? : ∀ {text before after : List Char},
    splitOnce? [mark] text = some (before, after) → mark ∉ before
  | [], _, _, h => by cases h
  | c :: cs, before, after, h => by
      rw [splitOnce?] at h
      split at h
      · obtain ⟨rfl, -⟩ := Prod.mk.inj (Option.some.inj h)
        exact List.not_mem_nil
      · next hd =>
        obtain ⟨⟨b, a⟩, hs, he⟩ := Option.map_eq_some_iff.mp h
        obtain ⟨rfl, -⟩ := Prod.mk.inj he
        have hc : mark ≠ c := by
          rintro rfl
          simp [dropMark?] at hd
        exact List.not_mem_cons_of_ne_of_not_mem hc (notMem_of_splitOnce? hs)

theorem notMem_of_splitOnce?_eq_none : ∀ {text : List Char},
    splitOnce? [mark] text = none → mark ∉ text
  | [], _ => List.not_mem_nil
  | c :: cs, h => by
      rw [splitOnce?] at h
      split at h
      · cases h
      · next hd =>
        have hc : mark ≠ c := by
          rintro rfl
          simp [dropMark?] at hd
        exact List.not_mem_cons_of_ne_of_not_mem hc
          (notMem_of_splitOnce?_eq_none (Option.map_eq_none_iff.mp h))

/-- Before the first mark there is none, however long the mark. -/
theorem splitOnce?_before {mark : List Char} (hmark : mark ≠ []) :
    ∀ {text before after : List Char}, splitOnce? mark text = some (before, after) →
      splitOnce? mark before = none
  | [], before, after, h => by
      rw [splitOnce?, if_neg (by simpa using hmark)] at h
      cases h
  | c :: cs, before, after, h => by
      rw [splitOnce?] at h
      split at h
      · obtain ⟨rfl, -⟩ := Prod.mk.inj (Option.some.inj h)
        rw [splitOnce?, if_neg (by simpa using hmark)]
      · next hd =>
        obtain ⟨⟨b, a⟩, hs, he⟩ := Option.map_eq_some_iff.mp h
        obtain ⟨rfl, -⟩ := Prod.mk.inj he
        have hd' : dropMark? mark (c :: b) = none := by
          rw [Option.eq_none_iff_forall_not_mem]
          intro rest hrest
          rw [append_of_splitOnce? hs, List.append_assoc, ← List.cons_append,
            append_of_dropMark? hrest, List.append_assoc, dropMark?_append] at hd
          cases hd
        rw [splitOnce?, hd', splitOnce?_before hmark hs, Option.map_none]

theorem splitOnce?_append : ∀ {before : List Char}, mark ∉ before → ∀ after : List Char,
    splitOnce? [mark] (before ++ mark :: after) = some (before, after)
  | [], _, after => by simp [splitOnce?, dropMark?]
  | c :: before, h, after => by
      have hc : mark ≠ c := List.ne_of_not_mem_cons h
      rw [List.cons_append, splitOnce?, dropMark?, if_neg hc]
      simp only [splitOnce?_append (List.not_mem_of_not_mem_cons h) after, Option.map_some]

theorem splitLast?_append (h : mark ∉ after) (before : List Char) :
    splitLast? mark (before ++ mark :: after) = some (before, after) := by
  have hreverse : (before ++ mark :: after).reverse = after.reverse ++ mark :: before.reverse := by
    simp
  rw [splitLast?, hreverse, splitOnce?_append (by rwa [List.mem_reverse])]
  simp

theorem append_of_splitLast? (h : splitLast? mark text = some (before, after)) :
    text = before ++ mark :: after := by
  obtain ⟨⟨a, b⟩, hs, he⟩ := Option.map_eq_some_iff.mp h
  obtain ⟨rfl, rfl⟩ := Prod.mk.inj he
  rw [← text.reverse_reverse, append_of_splitOnce? hs]
  simp

theorem splitLast?_eq_none_iff : splitLast? mark text = none ↔ mark ∉ text := by
  rw [splitLast?, Option.map_eq_none_iff, ← List.mem_reverse]
  refine ⟨notMem_of_splitOnce?_eq_none, fun h => ?_⟩
  cases hcut : splitOnce? [mark] text.reverse with
  | none => rfl
  | some cut => exact absurd (by rw [append_of_splitOnce? hcut]; simp) h

theorem splitAll_of_notMem : ∀ {part : List Char}, mark ∉ part → splitAll mark part = [part]
  | [], _ => rfl
  | c :: part, h => by
      have hc : c ≠ mark := (List.ne_of_not_mem_cons h).symm
      rw [splitAll, if_neg hc, splitAll_of_notMem (List.not_mem_of_not_mem_cons h)]

theorem splitAll_append_cons : ∀ {part : List Char}, mark ∉ part → ∀ rest : List Char,
    splitAll mark (part ++ mark :: rest) = part :: splitAll mark rest
  | [], _, rest => by rw [List.nil_append, splitAll, if_pos rfl]
  | c :: part, h, rest => by
      have hc : c ≠ mark := (List.ne_of_not_mem_cons h).symm
      rw [List.cons_append, splitAll, if_neg hc,
        splitAll_append_cons (List.not_mem_of_not_mem_cons h) rest]

theorem joinWith_cons_cons (sep part next : String) (parts : List String) :
    joinWith sep (part :: next :: parts) = part ++ sep ++ joinWith sep (next :: parts) := by
  rw [joinWith]
  exact fun hnil => by cases hnil

theorem mem_joinWith {sep : String} : ∀ {parts : List String},
    c ∈ (joinWith sep parts).toList → c ∈ sep.toList ∨ ∃ part ∈ parts, c ∈ part.toList
  | [], h => by cases h
  | [part], h => .inr ⟨part, List.mem_cons_self, h⟩
  | part :: next :: parts, h => by
      rw [joinWith_cons_cons, String.toList_append, String.toList_append, List.mem_append,
        List.mem_append] at h
      rcases h with (hpart | hsep) | hrest
      · exact .inr ⟨part, List.mem_cons_self, hpart⟩
      · exact .inl hsep
      · refine (mem_joinWith hrest).imp_right ?_
        rintro ⟨other, hother, hc⟩
        exact ⟨other, List.mem_cons_of_mem _ hother, hc⟩

/-- **Joined parts are split again**, unless there are none or one of them has the mark in it. -/
theorem splitAll_joinWith {sep : String} (hsep : sep.toList = [mark]) :
    ∀ {parts : List String}, parts ≠ [] → (∀ part ∈ parts, mark ∉ part.toList) →
      splitAll mark (joinWith sep parts).toList = parts.map String.toList
  | [], hne, _ => absurd rfl hne
  | [part], _, h => splitAll_of_notMem (h part List.mem_cons_self)
  | part :: next :: parts, _, h => by
      obtain ⟨hpart, hparts⟩ := List.forall_mem_cons.mp h
      have hjoined : (joinWith sep (part :: next :: parts)).toList =
          part.toList ++ mark :: (joinWith sep (next :: parts)).toList := by
        rw [joinWith_cons_cons, String.toList_append, String.toList_append, hsep,
          List.append_assoc, List.singleton_append]
      rw [hjoined, splitAll_append_cons hpart,
        splitAll_joinWith hsep (List.cons_ne_nil next parts) hparts]
      rfl

/-! ## Lower case -/

theorem toLower_of_not_isUpper (h : c.isUpper = false) : c.toLower = c :=
  dif_neg (of_decide_eq_false h)

theorem isLower_toLower (h : c.isUpper = true) : c.toLower.isLower = true := by
  have hc : c.val ≥ 'A'.val ∧ c.val ≤ 'Z'.val := of_decide_eq_true h
  have hval : c.toLower.val = c.val + 32 := congrArg Char.val (dif_pos hc)
  have hbounds : 'a'.val ≤ c.toLower.val ∧ c.toLower.val ≤ 'z'.val := by
    rw [hval]
    grind
  exact Bool.and_eq_true_iff.mpr ⟨decide_eq_true hbounds.1, decide_eq_true hbounds.2⟩

/-- What is no letter comes from itself only. -/
theorem toLower_eq_iff (hd : d.isAlpha = false) : c.toLower = d ↔ c = d := by
  obtain ⟨hupper, hlower⟩ := Bool.or_eq_false_iff.mp hd
  constructor
  · rintro rfl
    cases hc : c.isUpper with
    | false => exact (toLower_of_not_isUpper hc).symm
    | true => exact absurd ((isLower_toLower hc).symm.trans hlower) (by decide)
  · rintro rfl
    exact toLower_of_not_isUpper hupper

theorem length_lower (text : List Char) : (lower text).length = text.length := List.length_map _

theorem lower_append (xs ys : List Char) : lower (xs ++ ys) = lower xs ++ lower ys :=
  List.map_append

theorem lower_cons (hc : c.isAlpha = false) (text : List Char) :
    lower (c :: text) = c :: lower text :=
  congrArg (· :: lower text) ((toLower_eq_iff hc).mpr rfl)

theorem length_eq_of_lower (h : lower xs = lower ys) : xs.length = ys.length := by
  rw [← length_lower xs, h, length_lower]

theorem lower_eq_self (h : ∀ c ∈ text, c.isAlpha = false) : lower text = text :=
  (List.map_congr_left fun c hc => (toLower_eq_iff (h c hc)).mpr rfl).trans text.map_id

theorem notMem_lower (hc : c.isAlpha = false) (h : c ∉ text) : c ∉ lower text := by
  intro hmem
  obtain ⟨d, hd, he⟩ := List.mem_map.mp hmem
  exact h ((toLower_eq_iff hc).mp he ▸ hd)

/-- Texts that are the same have their first `c` in the same place. -/
theorem eq_of_cut : ∀ {xs ys as bs : List Char}, c ∉ xs → c ∉ ys →
    xs ++ c :: as = ys ++ c :: bs → xs = ys ∧ as = bs
  | [], [], _, _, _, _, h => ⟨rfl, (List.cons.inj h).2⟩
  | [], _ :: _, _, _, _, hy, h => absurd ((List.cons.inj h).1 ▸ List.mem_cons_self) hy
  | _ :: _, [], _, _, hx, _, h => absurd ((List.cons.inj h).1 ▸ List.mem_cons_self) hx
  | x :: xs, y :: ys, as, bs, hx, hy, h => by
      obtain ⟨rfl, htail⟩ := List.cons.inj h
      obtain ⟨rfl, hrest⟩ := eq_of_cut (fun h => hx (List.mem_cons_of_mem _ h))
        (fun h => hy (List.mem_cons_of_mem _ h)) htail
      exact ⟨rfl, hrest⟩

/-- **Texts that agree in lower case are cut in the same place.** -/
theorem lower_cut (hc : c.isAlpha = false) {as bs : List Char} (hx : c ∉ xs) (hy : c ∉ ys)
    (h : lower (xs ++ c :: as) = lower (ys ++ c :: bs)) :
    lower xs = lower ys ∧ lower as = lower bs := by
  rw [lower_append, lower_append, lower_cons hc, lower_cons hc] at h
  exact eq_of_cut (notMem_lower hc hx) (notMem_lower hc hy) h

/-! ## Trimming and cutting in lower case -/

theorem dropWhile_lower (hp : ∀ c, p c.toLower = p c) (text : List Char) :
    (lower text).dropWhile p = lower (text.dropWhile p) := by
  rw [lower, List.dropWhile_map, lower]
  congr 2
  exact funext hp

theorem trimEnd_lower (hp : ∀ c, p c.toLower = p c) (text : List Char) :
    trimEnd p (lower text) = lower (trimEnd p text) := by
  rw [trimEnd, trimEnd, lower, ← List.map_reverse, ← lower, dropWhile_lower hp, lower, lower,
    List.map_reverse]

theorem trimBoth_lower (hp : ∀ c, p c.toLower = p c) (text : List Char) :
    trimBoth p (lower text) = lower (trimBoth p text) := by
  rw [trimBoth, dropWhile_lower hp, trimEnd_lower hp, trimBoth]

theorem toLower_beq (hd : d.isAlpha = false) (c : Char) : (c.toLower == d) = (c == d) := by
  rw [Bool.eq_iff_iff, beq_iff_eq, beq_iff_eq, toLower_eq_iff hd]

/-- No letter is a blank. -/
theorem isBlank_of_isAlpha (h : c.isAlpha = true) : isBlank c = false := by
  have hrange : 65 ≤ c.toNat ∧ c.toNat ≤ 122 := by
    rcases Bool.or_eq_true_iff.mp h with hupper | hlower
    · have hc : 'A'.val ≤ c.val ∧ c.val ≤ 'Z'.val := of_decide_eq_true hupper
      have hleast : 65 ≤ c.toNat := UInt32.le_iff_toNat_le.mp hc.1
      have hmost : c.toNat ≤ 90 := UInt32.le_iff_toNat_le.mp hc.2
      omega
    · obtain ⟨hleast, hmost⟩ := Bool.and_eq_true_iff.mp hlower
      have hleast : 97 ≤ c.toNat := UInt32.le_iff_toNat_le.mp (of_decide_eq_true hleast)
      have hmost : c.toNat ≤ 122 := UInt32.le_iff_toNat_le.mp (of_decide_eq_true hmost)
      omega
  simp only [isBlank, Bool.or_eq_false_iff, Bool.and_eq_false_iff, decide_eq_false_iff_not,
      beq_eq_false_iff_ne]
  omega

theorem isBlank_toLower (c : Char) : isBlank c.toLower = isBlank c := by
  cases hc : c.isUpper with
  | false => rw [toLower_of_not_isUpper hc]
  | true =>
    rw [isBlank_of_isAlpha (Bool.or_eq_true_iff.mpr (.inr (isLower_toLower hc))),
      isBlank_of_isAlpha (Bool.or_eq_true_iff.mpr (.inl hc))]

/-- A mark without letters is found where it was before. -/
theorem dropMark?_lower : ∀ {mark text : List Char}, (∀ c ∈ mark, c.isAlpha = false) →
    dropMark? mark (lower text) = (dropMark? mark text).map lower
  | [], _, _ => rfl
  | _ :: _, [], _ => rfl
  | m :: ms, c :: cs, h => by
      obtain ⟨hm, hms⟩ := List.forall_mem_cons.mp h
      have hc : m = c.toLower ↔ m = c := by
        rw [eq_comm, toLower_eq_iff hm, eq_comm]
      simp only [lower, List.map_cons, dropMark?, hc]
      split
      · exact dropMark?_lower hms
      · rfl

theorem splitOnce?_lower {mark : List Char} (hmark : ∀ c ∈ mark, c.isAlpha = false) :
    ∀ {text : List Char}, splitOnce? mark text = none → splitOnce? mark (lower text) = none
  | [], h => h
  | c :: cs, h => by
      rw [splitOnce?] at h
      split at h
      · cases h
      next hd =>
      have hd' : dropMark? mark (c.toLower :: lower cs) = none := by
        have hmap : dropMark? mark (lower (c :: cs)) = (dropMark? mark (c :: cs)).map lower :=
          dropMark?_lower hmark
        rwa [hd] at hmap
      change splitOnce? mark (c.toLower :: lower cs) = none
      rw [splitOnce?, hd', splitOnce?_lower hmark (Option.map_eq_none_iff.mp h), Option.map_none]

/-- Without a mark in a text, there is none in its end. -/
theorem splitOnce?_dropWhile {mark : List Char} (p : Char → Bool) :
    ∀ {text : List Char}, splitOnce? mark text = none →
      splitOnce? mark (text.dropWhile p) = none
  | [], h => h
  | c :: cs, h => by
      rw [List.dropWhile_cons]
      split
      · rw [splitOnce?] at h
        split at h
        · cases h
        · exact splitOnce?_dropWhile p (Option.map_eq_none_iff.mp h)
      · exact h

/-! ## A slash at the end -/

/-- The text with a slash at its end, one more only if there is none. -/
def closed (text : List Char) : List Char :=
  if text.getLast? = some '/' then text else text ++ ['/']

theorem closed_append (xs : List Char) (h : ys ≠ []) : closed (xs ++ ys) = xs ++ closed ys := by
  rw [closed, closed, List.getLast?_append_of_ne_nil _ h]
  split
  · rfl
  · exact List.append_assoc _ _ _

theorem exists_closed_cons (c : Char) (text : List Char) :
    ∃ text', closed (c :: text) = c :: text' := by
  rw [closed]
  split
  · exact ⟨text, rfl⟩
  · exact ⟨text ++ ['/'], rfl⟩

theorem length_closed_le (text : List Char) : (closed text).length ≤ text.length + 1 := by
  rw [closed]
  split
  · exact Nat.le_succ _
  · rw [List.length_append]
    exact Nat.le_refl _

theorem le_length_closed (text : List Char) : text.length ≤ (closed text).length := by
  rw [closed]
  split
  · exact Nat.le_refl _
  · rw [List.length_append]
    exact Nat.le_add_right _ _

/-- Behind a first character that stays. -/
theorem closed_cons_append (c : Char) (xs : List Char) (h : ys ≠ []) :
    closed (c :: (xs ++ ys)) = c :: (xs ++ closed ys) := closed_append (c :: xs) h

theorem closed_of_notMem (h : '/' ∉ text) : closed text = text ++ ['/'] :=
  if_neg fun hlast => h (List.mem_of_getLast? hlast)

theorem closed_concat (xs : List Char) : closed (xs ++ ['/']) = xs ++ ['/'] :=
  closed_append xs (List.cons_ne_nil _ _)

theorem trimEnd_closed (text : List Char) :
    trimEnd (· == '/') (closed text) = trimEnd (· == '/') text := by
  rw [closed]
  split
  · rfl
  · exact trimEnd_concat rfl text

/-- What is cut off the front has no part in whether a text gets a slash. -/
theorem closed_dropWhile_eq_iff (h : text.dropWhile p ≠ []) :
    closed (text.dropWhile p) = text.dropWhile p ++ ['/'] ↔ closed text = text ++ ['/'] := by
  have htext : text.takeWhile p ++ text.dropWhile p = text := List.takeWhile_append_dropWhile
  have hend := closed_append (text.takeWhile p) h
  rw [htext] at hend
  constructor
  · intro hslash
    rw [hend, hslash, ← List.append_assoc, htext]
  · intro hslash
    refine List.append_cancel_left (hend.symm.trans (hslash.trans ?_))
    rw [← List.append_assoc, htext]

theorem closed_lower (text : List Char) : closed (lower text) = lower (closed text) := by
  have hlast : (lower text).getLast? = some '/' ↔ text.getLast? = some '/' := by
    rw [lower, List.getLast?_map, Option.map_eq_some_iff]
    constructor
    · rintro ⟨c, hc, he⟩
      rwa [← (toLower_eq_iff (by decide)).mp he]
    · exact fun h => ⟨'/', h, rfl⟩
  rw [closed, closed]
  by_cases h : text.getLast? = some '/'
  · rw [if_pos h, if_pos (hlast.mpr h)]
  · rw [if_neg h, if_neg (fun hl => h (hlast.mp hl)), lower_append]
    rfl

end GeoReplication.Text
