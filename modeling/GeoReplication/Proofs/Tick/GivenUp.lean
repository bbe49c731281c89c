import GeoReplication.Proofs.Tick.Lap

/-!
# Proofs/Tick/GivenUp — a sweep in which a category is given up

    answers of c:   page ── page ── ✗            what was found:   the numbers of the pages

A source whose look-up fails is given up: it is exhausted and has nothing left.  To the other
sources this is as if its category had no candidates but those that it had found before
(`Outlook.asFound`).  In a sweep that sees only these, the source goes on looking and comes upon
them again, but they are all busy by then, so it picks nothing (`Shadows`, `shadows_draw`).

What a source has found is what it has handed out or still holds, as long as it goes on (`Tracks`);
when it is given up it has handed out all of it.
-/

namespace GeoReplication

open Scheduler Source Store

/-- What the look-ups of a category were answered: pages, or nothing where one failed. -/
abbrev Answers := List (Option (List Int))

namespace Answers

/-- The numbers of all pages. -/
def found (answers : Answers) : List Int := answers.flatMap (·.getD [])

variable {answers new : Answers} {id : Int}

@[simp] theorem found_append : (answers ++ new).found = answers.found ++ new.found :=
  List.flatMap_append

@[simp] theorem found_page (page : List Int) : Answers.found [some page] = page := by simp [found]

@[simp] theorem found_failed : Answers.found [none] = [] := rfl

end Answers

/-- A page that holds only some of the numbers holds no others when these are all there are. -/
theorem limited_filter {size : Nat} {leg : List Int} {p : Int → Bool}
    (h : ∀ id ∈ limited size leg, p id = true) :
    limited size (leg.filter p) = limited size leg := by
  rw [limited] at h
  rw [limited, limited]
  split
  · next hsize =>
    rw [if_pos hsize] at h
    have hleg : leg.filter p = leg.take size ++ (leg.drop size).filter p := by
      conv_lhs => rw [← List.take_append_drop size leg]
      rw [List.filter_append, List.filter_eq_self.mpr h]
    rw [hleg]
    rcases Nat.le_total size leg.length with hlong | hshort
    · have hlength : (leg.take size).length = size := by
        rw [List.length_take, Nat.min_eq_left hlong]
      exact List.take_left' hlength
    · rw [List.drop_eq_nil_of_le hshort, List.filter_nil, List.append_nil, List.take_take,
        Nat.min_self]
  · next hsize =>
    rw [if_neg hsize] at h
    exact List.filter_eq_self.mpr h

namespace Outlook

variable {o : Outlook} {answers : Category → Answers} {s s' t : Source} {c : Category} {id : Int}

/-- The outlook in which a category with a look-up that failed has no candidates but those found. -/
def asFound (o : Outlook) (answers : Category → Answers) : Outlook where
  candidates c :=
    if none ∈ answers c then (o.candidates c).filter (answers c).found.contains
    else o.candidates c
  ascending c := by
    split
    · exact (o.ascending c).sublist List.filter_sublist
    · exact o.ascending c
  positive c id hid := by
    split at hid
    · exact o.positive c id (List.mem_filter.mp hid).1
    · exact o.positive c id hid
  pageSize := o.pageSize
  pageSize_pos := o.pageSize_pos
  inFlight := o.inFlight

theorem found_of_mem_asFound (hfailed : none ∈ answers c)
    (hid : id ∈ (o.asFound answers).candidates c) : id ∈ (answers c).found := by
  rw [asFound] at hid
  dsimp only at hid
  rw [if_pos hfailed] at hid
  exact List.contains_iff_mem.mp (List.mem_filter.mp hid).2

/-! ## Look-ups and what was found -/

/-- The page that a source would look up. -/
def page (o : Outlook) (s : Source) : List Int :=
  limited o.pageSize (behind (o.candidates s.category) s.afterId)

theorem refill_of_due (hdue : s.isDue = true) : o.refill s = s.accept o.pageSize (o.page s) :=
  if_pos hdue

theorem refill_of_not_due (hdue : ¬ s.isDue = true) : o.refill s = s := if_neg hdue

/-- A page that was found is the one that is looked up where only that is seen. -/
theorem refill_asFound (hfound : none ∈ answers s.category →
    ∀ id ∈ o.page s, id ∈ (answers s.category).found) :
    (o.asFound answers).refill s = o.refill s := by
  have hpage : (o.asFound answers).page s = o.page s := by
    rw [page, page]
    by_cases hfailed : none ∈ answers s.category
    · have hbehind : behind ((o.asFound answers).candidates s.category) s.afterId =
          (behind (o.candidates s.category) s.afterId).filter
            (answers s.category).found.contains := by
        rw [asFound]
        dsimp only
        rw [if_pos hfailed, behind, behind, List.filter_filter, List.filter_filter]
        exact List.filter_congr fun id _ => Bool.and_comm _ _
      rw [hbehind]
      exact limited_filter fun id hid => List.contains_iff_mem.mpr (hfound hfailed id hid)
    · rw [asFound]
      dsimp only
      rw [if_neg hfailed]
  by_cases hdue : s.isDue = true
  · rw [refill_of_due hdue, refill_of_due hdue, hpage]
    rfl
  · rw [refill_of_not_due hdue, refill_of_not_due hdue]

/-- A source before and after its look-up, if one was due, and what it was answered. -/
inductive Looks (o : Outlook) (s : Source) : Answers → Source → Prop
  | notDue : ¬ s.isDue = true → Looks o s [] s
  | page : s.isDue = true → Looks o s [some (o.page s)] (o.refill s)
  | failed : s.isDue = true → Looks o s [none] s.giveUp

theorem Looks.category {new : Answers} (h : o.Looks s new s') : s'.category = s.category := by
  cases h with
  | notDue => rfl
  | page => exact category_refill o s
  | failed => rfl

/-- Of a page that is not the last one nothing is cut off. -/
theorem buffer_refill_of_goesOn (hdue : s.isDue = true) (hmore : (o.refill s).exhausted = false) :
    (o.refill s).buffer = o.page s := by
  rw [refill_of_due hdue] at hmore ⊢
  rw [buffer_accept, (isDue_iff.mp hdue).1, List.nil_append]
  cases hw : s.wrapped with
  | false => simp [cut, hw]
  | true =>
    rw [accept_second hw] at hmore
    simp only [Bool.or_eq_false_iff, decide_eq_false_iff_not] at hmore
    have hcut : s.cut (o.page s) = upTo (o.page s) s.start := by simp [cut, upTo, hw]
    rw [hcut, upTo_of_length hmore.2]

/-- What a source has done with its answers, when the numbers of `busy` are in flight: as long as it
goes on, and when it is given up, it has handed out what it found, up to what it holds. -/
structure Tracks (o : Outlook) (busy : Int → Bool) (answers : Answers) (s : Source) : Prop where
  candidates : ∀ id ∈ answers.found, id ∈ o.candidates s.category
  givenUp : none ∈ answers → s.isDone = true
  spent : (s.exhausted = true → none ∈ answers) → ∀ id ∈ answers.found,
    id ∈ s.buffer ∨ busy id = true
  last : (s.exhausted = true → none ∈ answers) →
    s.buffer.getLast?.or s.lastTaken = answers.found.getLast?

namespace Tracks

variable {busy busy' : Int → Bool} {before new : Answers}

theorem begin (o : Outlook) (busy : Int → Bool) (c : Category) (start : Int) :
    Tracks o busy [] (Source.begin c start) where
  candidates _ hid := absurd hid List.not_mem_nil
  givenUp h := absurd h List.not_mem_nil
  spent _ _ hid := absurd hid List.not_mem_nil
  last _ := rfl

/-- A source that is given up has spent all that it found. -/
theorem busy_of_failed (h : Tracks o busy before s) (hfailed : none ∈ before) :
    ∀ id ∈ before.found, busy id = true := by
  intro id hid
  refine (h.spent (fun _ => hfailed) id hid).resolve_left fun hbuffer => ?_
  rw [(isDone_iff.mp (h.givenUp hfailed)).2] at hbuffer
  exact List.not_mem_nil hbuffer

theorem lastTaken_of_failed (h : Tracks o busy before s) (hfailed : none ∈ before) :
    s.lastTaken = before.found.getLast? := by
  rw [← h.last fun _ => hfailed, (isDone_iff.mp (h.givenUp hfailed)).2, List.getLast?_nil,
    Option.none_or]

theorem not_failed_of_isDue (h : Tracks o busy before s) (hdue : s.isDue = true) :
    none ∉ before := fun hfailed => by
  have hdone := (isDone_iff.mp (h.givenUp hfailed)).1
  rw [(isDue_iff.mp hdue).2] at hdone
  cases hdone

/-- A look-up adds to what was found. -/
theorem looks (h : Tracks o busy before s) (hlooks : o.Looks s new s') :
    Tracks o busy (before ++ new) s' := by
  cases hlooks with
  | notDue => rwa [List.append_nil]
  | page hdue =>
    obtain ⟨hempty, hopen⟩ := isDue_iff.mp hdue
    have hnone' : none ∉ before ++ [some (o.page s)] := by simp [h.not_failed_of_isDue hdue]
    have hstart : s.exhausted = true → none ∈ before := fun hex => absurd hopen (by simp [hex])
    -- unless this was the last page, all of it is in the buffer
    have hbuffer : ((o.refill s).exhausted = true → none ∈ before ++ [some (o.page s)]) →
        (o.refill s).buffer = o.page s := fun hmore =>
      buffer_refill_of_goesOn hdue (Bool.eq_false_iff.mpr fun hex => hnone' (hmore hex))
    refine ⟨fun id hid => ?_, fun hfailed => absurd hfailed hnone', fun hmore id hid => ?_,
      fun hmore => ?_⟩
    · rw [category_refill]
      rw [Answers.found_append, Answers.found_page, List.mem_append] at hid
      rcases hid with hid | hid
      · exact h.candidates id hid
      · obtain ⟨rest, hleg, -⟩ :=
          isPage_limited o.pageSize (behind (o.candidates s.category) s.afterId)
        have hmem : id ∈ behind (o.candidates s.category) s.afterId :=
          hleg ▸ List.mem_append_left _ hid
        exact (List.mem_filter.mp hmem).1
    · rw [hbuffer hmore]
      rw [Answers.found_append, Answers.found_page, List.mem_append] at hid
      refine hid.symm.imp_right fun hid => ?_
      refine (h.spent hstart id hid).resolve_left fun hmem => ?_
      rw [hempty] at hmem
      exact List.not_mem_nil hmem
    · have hlast := h.last hstart
      rw [hempty, List.getLast?_nil, Option.none_or] at hlast
      rw [hbuffer hmore, lastTaken_refill, hlast, Answers.found_append, Answers.found_page,
        List.getLast?_append]
  | failed hdue =>
    obtain ⟨hempty, hopen⟩ := isDue_iff.mp hdue
    have hstart : s.exhausted = true → none ∈ before := fun hex => absurd hopen (by simp [hex])
    have hfound : Answers.found (before ++ [none]) = before.found := by simp
    refine ⟨fun id hid => ?_, fun _ => ?_, fun _ id hid => ?_, fun _ => ?_⟩
    · exact h.candidates id (hfound ▸ hid)
    · exact isDone_iff.mpr ⟨rfl, hempty⟩
    · exact h.spent hstart id (hfound ▸ hid)
    · exact (h.last hstart).trans (congrArg List.getLast? hfound.symm)

/-- Handing out goes on with what was found. -/
theorem settles {seen : List Int} (h : Tracks o busy before s)
    (hs : Settles (Truth busy) seen s s') (hseen : ∀ id ∈ seen, busy' id = true)
    (hbusy : ∀ id, busy id = true → busy' id = true) : Tracks o busy' before s' := by
  obtain ⟨k, rfl, hgone⟩ := hs
  refine ⟨h.candidates, fun hfailed => ?_, fun hmore id hid => ?_, fun hmore => ?_⟩
  · obtain ⟨hexhausted, hempty⟩ := isDone_iff.mp (h.givenUp hfailed)
    exact isDone_iff.mpr ⟨hexhausted, by rw [buffer_handOut, hempty, List.drop_nil]⟩
  · rcases h.spent hmore id hid with hbuffer | hid
    · rw [← List.take_append_drop k s.buffer, List.mem_append] at hbuffer
      rcases hbuffer with htaken | hkept
      · exact .inr ((hgone id htaken).elim (hseen id) fun hid => hbusy id hid.symm)
      · exact .inl hkept
    · exact .inr (hbusy id hid)
  · rw [← h.last hmore, buffer_handOut, handOut, ← Option.or_assoc, ← List.getLast?_append,
      List.take_append_drop]

end Tracks

/-! ## A source and its shadow -/

/-- `t` is `s`, or `s` has been given up and `t` holds nothing but numbers that are busy. -/
def Shadows (busy : Int → Bool) (answers : Answers) (s t : Source) : Prop :=
  t = s ∨ none ∈ answers ∧ s.buffer = [] ∧ t.category = s.category ∧
    ∀ id ∈ t.buffer, busy id = true

namespace Shadows

variable {busy busy' : Int → Bool} {before new : Answers}

theorem refl (busy : Int → Bool) (before : Answers) (s : Source) : Shadows busy before s s :=
  .inl rfl

theorem category (h : Shadows busy before s t) : t.category = s.category := by
  rcases h with rfl | h
  · rfl
  · exact h.2.2.1

theorem mono (h : Shadows busy before s t) (hbusy : ∀ id, busy id = true → busy' id = true) :
    Shadows busy' before s t :=
  h.imp_right fun ⟨hfailed, hempty, hcategory, hall⟩ =>
    ⟨hfailed, hempty, hcategory, fun id hid => hbusy id (hall id hid)⟩

/-- What has not been given up is its own shadow. -/
theorem eq_of_not_failed (h : Shadows busy before s t) (hnone : none ∉ before) : t = s :=
  h.resolve_right fun hright => hnone hright.1

/-- The shadow of a source with an empty buffer may hand out what it holds. -/
theorem handOut (h : Shadows busy before s t) (hempty : s.buffer = []) (k : Nat) :
    Shadows busy before s (t.handOut k) := by
  rcases h with rfl | ⟨hfailed, hempty, hcategory, hall⟩
  · refine .inl ?_
    simp only [Source.handOut, hempty, List.take_nil, List.drop_nil, List.getLast?_nil,
      Option.none_or]
    rw [← hempty]
  · exact .inr ⟨hfailed, hempty, hcategory, fun id hid => hall id (List.mem_of_mem_drop hid)⟩

/-- **Looking up**: what the shadow sees is what the source found, and when the source is given up
that is all busy. -/
theorem refill (h : Shadows busy before s t) (htracks : Tracks o busy before s)
    (hlooks : o.Looks s new s') (hbegins : before ++ new <+: answers s.category)
    (hall : none ∈ before ++ new → answers s.category = before ++ new) :
    Shadows busy (before ++ new) s' ((o.asFound answers).refill t) := by
  have htracks' := htracks.looks hlooks
  have hcategory := hlooks.category
  -- a source that is given up leaves only busy numbers to its shadow
  have hgone : none ∈ before ++ new → s'.buffer = [] → (∀ id ∈ t.buffer, busy id = true) →
      t.category = s.category →
      Shadows busy (before ++ new) s' ((o.asFound answers).refill t) := by
    intro hfailed hempty hbuffer hsame
    refine .inr ⟨hfailed, hempty, ?_, fun id hid => ?_⟩
    · rw [category_refill, hsame, hcategory]
    · by_cases hdue : t.isDue = true
      · have hcandidate := mem_candidates_of_mem_buffer_refill (isDue_iff.mp hdue).1 hid
        rw [hsame] at hcandidate
        have hfound := found_of_mem_asFound (hall hfailed ▸ hfailed) hcandidate
        rw [hall hfailed] at hfound
        exact htracks'.busy_of_failed hfailed id hfound
      · rw [refill_of_not_due hdue] at hid
        exact hbuffer id hid
  rcases h with rfl | ⟨hfailed, hempty, hsame, hbusy⟩
  · cases hlooks with
    | notDue hdue => exact .inl (refill_of_not_due hdue)
    | page hdue =>
      refine .inl (refill_asFound fun _ id hid => ?_)
      obtain ⟨rest, hrest⟩ := hbegins
      rw [← hrest, Answers.found_append, Answers.found_append, Answers.found_page]
      exact List.mem_append_left _ (List.mem_append_right _ hid)
    | failed hdue =>
      have hnil := (isDue_iff.mp hdue).1
      exact hgone (by simp) hnil (by simp [hnil]) rfl
  · cases hlooks with
    | notDue => exact hgone (by simpa using hfailed) hempty hbusy hsame
    | page hdue => exact absurd hfailed (htracks.not_failed_of_isDue hdue)
    | failed hdue => exact absurd hfailed (htracks.not_failed_of_isDue hdue)

end Shadows

end Outlook

namespace Source

/-! ## Batches that pass over -/

section Batches

variable {busy : Int → Bool} {R : Source → Source → Prop} {capacity : Nat} {ss ts : List Source}
  {p p' : Picked}

/-- Of sources that are related one does what the other does, or it holds only numbers that are busy
where the other holds none. -/
structure Idles (busy : Int → Bool) (R : Source → Source → Prop) : Prop where
  refl (s : Source) : R s s
  busy {s t : Source} : R s t → t = s ∨ s.buffer = [] ∧ ∀ id ∈ t.buffer, busy id = true
  handOut {s t : Source} : R s t → s.buffer = [] → ∀ k, R s (t.handOut k)

/-- Of numbers that are busy none is picked. -/
theorem Picks.eq_of_busy {ss' : List Source} (h : Picks (Truth busy) ss p ss' p')
    (hbusy : ∀ id, Pool ss id → busy id = true) : p' = p := by
  obtain ⟨new, hnew⟩ := h.adds
  have hnil : new = [] := List.eq_nil_iff_forall_not_mem.mpr fun id hid => by
    have hfree : false = busy id := hnew.free id hid
    rw [hbusy id (hnew.pool id hid)] at hfree
    cases hfree
  subst hnil
  obtain ⟨batch, seen⟩ := p'
  obtain ⟨rfl, rfl⟩ : batch = p.batch ∧ seen = p.seen :=
    ⟨hnew.batch.trans (List.append_nil _), hnew.seen⟩
  rfl

theorem turn_of_idles (hR : Idles busy R) {s t : Source} (h : R s t) (p : Picked) :
    (turn (m := Id) busy t p).2 = (turn (m := Id) busy s p).2 ∧
      R (turn (m := Id) busy s p).1 (turn (m := Id) busy t p).1 := by
  rcases hR.busy h with rfl | ⟨hempty, hbusy⟩
  · exact ⟨rfl, hR.refl _⟩
  · obtain ⟨hsame, hpicked⟩ := (turnOf busy s p).idle hempty
    have hturn := (turnOf busy t p).picks
    obtain ⟨k, hk, -⟩ := (List.forall₂_cons.mp hturn.settles).1
    have hnone : (turn (m := Id) busy t p).2 = p := by
      refine hturn.eq_of_busy fun id hid => ?_
      obtain ⟨u, hu, hid⟩ := hid
      rw [List.mem_singleton.mp hu] at hid
      exact hbusy id hid
    rw [hsame, hpicked, hnone, hk]
    exact ⟨rfl, hR.handOut h hempty k⟩

theorem round_of_idles (hR : Idles busy R) (h : List.Forall₂ R ss ts) (capacity : Nat) :
    ∀ p : Picked, (round (m := Id) busy capacity ts p).2 = (round (m := Id) busy capacity ss p).2 ∧
      List.Forall₂ R (round (m := Id) busy capacity ss p).1
        (round (m := Id) busy capacity ts p).1 := by
  induction h with
  | nil => exact fun p => ⟨rfl, .nil⟩
  | @cons s t ss ts hst hrest ih =>
    intro p
    by_cases hfull : capacity ≤ p.batch.length
    · rw [round_of_full hfull, round_of_full hfull]
      exact ⟨rfl, .cons hst hrest⟩
    · obtain ⟨hpicked, hturn⟩ := turn_of_idles hR hst p
      obtain ⟨hpicked', hround⟩ := ih (turn (m := Id) busy s p).2
      rw [round_of_room hfull, round_of_room hfull, hpicked]
      exact ⟨hpicked', .cons hturn hround⟩

theorem round_of_empty (hempty : ∀ s ∈ ss, s.buffer = []) (p : Picked) :
    round (m := Id) busy capacity ss p = (ss, p) := by
  induction ss with
  | nil => rfl
  | cons s ss ih =>
    by_cases hfull : capacity ≤ p.batch.length
    · exact round_of_full hfull _
    · obtain ⟨hs, hrest⟩ := List.forall_mem_cons.mp hempty
      obtain ⟨hsame, hpicked⟩ := (turnOf busy s p).idle hs
      rw [round_of_room hfull, hsame, hpicked, ih hrest]

/-- The rounds that the one source has more of pick nothing. -/
theorem rounds_of_idles (hR : Idles busy R) : ∀ (count' : Nat) {count : Nat} {ss ts : List Source}
    (p : Picked), List.Forall₂ R ss ts → buffered ss ≤ count → buffered ts ≤ count' →
    (rounds (m := Id) busy capacity count' ts p).2 =
        (rounds (m := Id) busy capacity count ss p).2 ∧
      List.Forall₂ R (rounds (m := Id) busy capacity count ss p).1
        (rounds (m := Id) busy capacity count' ts p).1
  | count', count, ss, ts, p, h, hcount, hcount' => by
      by_cases hfull : capacity ≤ p.batch.length
      · rw [rounds_full hfull, rounds_full hfull]
        exact ⟨rfl, h⟩
      -- where the one holds nothing, neither does the other
      have hempties : (∀ t ∈ ts, t.buffer = []) → ∀ s ∈ ss, s.buffer = [] := by
        clear hcount hcount'
        induction h with
        | nil => simp
        | cons hst _ ih =>
          intro hts
          obtain ⟨ht, hts⟩ := List.forall_mem_cons.mp hts
          refine List.forall_mem_cons.mpr ⟨?_, ih hts⟩
          rcases hR.busy hst with rfl | ⟨hempty, -⟩
          · exact ht
          · exact hempty
      by_cases hts : ∀ t ∈ ts, t.buffer = []
      · rw [rounds_of_empty hts, rounds_of_empty (hempties hts)]
        exact ⟨rfl, h⟩
      have hpos : buffered ts ≠ 0 := fun hzero => hts (forall_buffer_eq_nil hzero)
      obtain ⟨more', rfl⟩ : ∃ more', count' = more' + 1 := ⟨count' - 1, by omega⟩
      have hless' := (roundOf busy capacity ts p).handsOut (by omega) hpos
      obtain ⟨hpicked, hround⟩ := round_of_idles hR h capacity p
      rw [rounds_of_room (by omega) hpos, hpicked]
      by_cases hss : ∀ s ∈ ss, s.buffer = []
      · -- only the one makes a round
        rw [round_of_empty hss] at hround ⊢
        exact rounds_of_idles hR more' p hround hcount (by omega)
      · have hpos : buffered ss ≠ 0 := fun hzero => hss (forall_buffer_eq_nil hzero)
        obtain ⟨more, rfl⟩ : ∃ more, count = more + 1 := ⟨count - 1, by omega⟩
        have hless := (roundOf busy capacity ss p).handsOut (by omega) hpos
        rw [rounds_of_room (by omega) hpos]
        exact rounds_of_idles hR more' _ hround (by omega) (by omega)

/-- **A batch of related sources** picks the same. -/
theorem draw_of_idles (hR : Idles busy R) (h : List.Forall₂ R ss ts) (capacity : Nat)
    (seen : List Int) : (draw busy capacity ts seen).2 = (draw busy capacity ss seen).2 ∧
      List.Forall₂ R (draw busy capacity ss seen).1 (draw busy capacity ts seen).1 :=
  rounds_of_idles hR _ _ h (Nat.le_refl _) (Nat.le_refl _)

end Batches

end Source

namespace Outlook

variable {o : Outlook} {answers before new : Category → Answers} {p q : Progress} {ss : List Source}
  {slots : Nat}

/-! ## Steps -/

/-- Where a step leads whose look-ups led to sources `ss`. -/
def onward (o : Outlook) (slots : Nat) (p : Progress) (ss : List Source) : Progress :=
  let r := draw (o.busy p) slots ss p.seen
  ⟨r.1, r.2.seen, p.scheduled ++ r.2.batch⟩

/-- The sources of a tick under way have handed out what they found before, and what was picked is
busy. -/
structure OnCourse (o : Outlook) (before : Category → Answers) (p : Progress) : Prop where
  tracks : ∀ s ∈ p.sources, Tracks o (o.busy p) (before s.category) s
  seen : ∀ id ∈ p.seen, o.busy p id = true

/-- What the look-ups of a step were answered, and the sources after them. -/
structure LooksAll (o : Outlook) (new : Category → Answers) (p : Progress) (ss : List Source) :
    Prop where
  sources : List.Forall₂ (fun s s' => o.Looks s (new s.category) s') p.sources ss
  elsewhere : ∀ c, c ∉ p.sources.map (·.category) → new c = []

theorem LooksAll.categories (h : LooksAll o new p ss) :
    ss.map (·.category) = p.sources.map (·.category) := by
  obtain ⟨h, -⟩ := h
  generalize p.sources = sources at h
  induction h with
  | nil => rfl
  | cons hs _ ih => rw [List.map_cons, List.map_cons, ih, hs.category]

theorem LooksAll.categories_onward (h : LooksAll o new p ss) (slots : Nat) :
    (o.onward slots p ss).sources.map (·.category) = p.sources.map (·.category) :=
  (batchOf_draw (o.busy p) slots ss p.seen).picks.categories.trans h.categories

/-- What is picked in a step is busy afterwards, and so is what was. -/
theorem busy_onward (hseen : ∀ id ∈ p.seen, o.busy p id = true) {id : Int}
    (hid : id ∈ (o.onward slots p ss).seen ∨ o.busy p id = true) :
    o.busy (o.onward slots p ss) id = true := by
  obtain ⟨picked, hpicked⟩ := (batchOf_draw (o.busy p) slots ss p.seen).picks.adds
  have hkept : o.busy p id = true → o.busy (o.onward slots p ss) id = true := fun hid =>
    busy_eq_true.mpr ((busy_eq_true.mp hid).imp_right (List.mem_append_left _))
  rcases hid with hid | hid
  · rcases hpicked.mem_seen.mp hid with hid | hid
    · refine busy_eq_true.mpr (.inr (List.mem_append_right _ ?_))
      rw [hpicked.batch]
      exact hid
    · exact hkept (hseen id hid)
  · exact hkept hid

theorem OnCourse.looked (h : OnCourse o before p) (hlooks : LooksAll o new p ss) :
    OnCourse o (fun c => before c ++ new c) { p with sources := ss } where
  tracks s' hs' := by
    obtain ⟨s, hs, hlook⟩ := exists_left_of_forall₂ hlooks.sources hs'
    rw [hlook.category]
    exact (h.tracks s hs).looks hlook
  seen := h.seen

/-- **A step keeps its course**, whatever its look-ups were answered. -/
theorem OnCourse.onward (h : OnCourse o before p) (hlooks : LooksAll o new p ss) (slots : Nat) :
    OnCourse o (fun c => before c ++ new c) (o.onward slots p ss) where
  tracks s' hs' := by
    obtain ⟨s, hs, hsettles⟩ := (batchOf_draw (o.busy p) slots ss p.seen).picks.origin hs'
    rw [hsettles.category]
    exact ((h.looked hlooks).tracks s hs).settles hsettles
      (fun id hid => busy_onward h.seen (.inl hid)) fun id hid => busy_onward h.seen (.inr hid)
  seen id hid := busy_onward h.seen (.inl hid)

/-- The answers of all steps go on from those up to here, and those of a source that is exhausted
end here. -/
def Extends (before answers : Category → Answers) (p : Progress) : Prop :=
  ∀ s ∈ p.sources, before s.category <+: answers s.category ∧
    (s.exhausted = true → answers s.category = before s.category)

theorem Extends.refl (before : Category → Answers) (p : Progress) : Extends before before p :=
  fun _ _ => ⟨List.prefix_rfl, fun _ => rfl⟩

/-- Handing out ends no source. -/
theorem Extends.of_onward (h : Extends before answers (o.onward slots p ss)) :
    Extends before answers { p with sources := ss } := by
  intro s hs
  obtain ⟨t, ht, hsettles⟩ := exists_right_of_forall₂
    (batchOf_draw (o.busy p) slots ss p.seen).picks.settles hs
  have hnext := h t ht
  obtain ⟨k, rfl, -⟩ := hsettles
  exact hnext

/-- A source that is exhausted has no look-up, and stays exhausted. -/
theorem Extends.of_looked (hlooks : LooksAll o new p ss)
    (h : Extends (fun c => before c ++ new c) answers { p with sources := ss }) :
    Extends before answers p := by
  intro s hs
  obtain ⟨s', hs', hlook⟩ := exists_right_of_forall₂ hlooks.sources hs
  obtain ⟨hbegins, hends⟩ := h s' hs'
  rw [hlook.category] at hbegins hends
  dsimp only at hends
  refine ⟨(List.prefix_append _ _).trans hbegins, fun hexhausted => ?_⟩
  generalize new s.category = latest at hlook hends
  cases hlook with
  | notDue => simpa using hends hexhausted
  | page hdue => rw [(isDue_iff.mp hdue).2] at hexhausted; cases hexhausted
  | failed hdue => rw [(isDue_iff.mp hdue).2] at hexhausted; cases hexhausted

/-- After a look-up that failed there are no others. -/
theorem Extends.of_failed (h : Extends before answers p) (hcourse : OnCourse o before p)
    {s : Source} (hs : s ∈ p.sources) (hfailed : none ∈ before s.category) :
    answers s.category = before s.category :=
  (h s hs).2 (isDone_iff.mp ((hcourse.tracks s hs).givenUp hfailed)).1

/-- The steps of `p` seen by an outlook that knows only what is found in the end. -/
structure Casts (o : Outlook) (before : Category → Answers) (p q : Progress) : Prop where
  sources : List.Forall₂ (fun s t => Shadows (o.busy p) (before s.category) s t) p.sources q.sources
  seen : q.seen = p.seen
  scheduled : q.scheduled = p.scheduled

theorem Casts.refl (o : Outlook) (before : Category → Answers) (p : Progress) :
    Casts o before p p :=
  ⟨List.forall₂_same.mpr fun s _ => .refl _ _ s, rfl, rfl⟩

theorem Casts.categories (h : Casts o before p q) :
    q.sources.map (·.category) = p.sources.map (·.category) := by
  obtain ⟨h, -, -⟩ := h
  generalize p.sources = sources, q.sources = shadows at h
  induction h with
  | nil => rfl
  | cons hst _ ih => rw [List.map_cons, List.map_cons, ih, hst.category]

theorem idles_shadows (busy : Int → Bool) (before : Category → Answers) :
    Idles busy fun s t => Shadows busy (before s.category) s t where
  refl s := .refl busy _ s
  busy h := h.imp_right fun h => ⟨h.2.1, h.2.2.2⟩
  handOut h hempty k := h.handOut hempty k

/-- **The look-ups of a step and of its shadow.** -/
theorem Casts.looked (h : Casts o before p q) (hcourse : OnCourse o before p)
    (hlooks : LooksAll o new p ss)
    (hextends : Extends (fun c => before c ++ new c) answers { p with sources := ss }) :
    Casts o (fun c => before c ++ new c) { p with sources := ss }
      { q with sources := (o.asFound answers).looked q } := by
  have hfailed := fun s' hs' => hextends.of_failed (hcourse.looked hlooks) (s := s') hs'
  obtain ⟨hsources, hseen, hscheduled⟩ := h
  obtain ⟨htracks, -⟩ := hcourse
  refine ⟨?_, hseen, hscheduled⟩
  clear hseen hscheduled
  change List.Forall₂ (fun s t => Shadows (o.busy p) (before s.category ++ new s.category) s t) ss _
  obtain ⟨hlooks, -⟩ := hlooks
  rw [Outlook.looked]
  dsimp only [Extends] at hextends hfailed
  generalize p.sources = sources, q.sources = shadows at hsources hlooks htracks
  induction hlooks generalizing shadows with
  | nil =>
    cases hsources
    exact .nil
  | cons hlook _ ih =>
    cases hsources with
    | cons hshadow hrest =>
      obtain ⟨htrack, htracks⟩ := List.forall_mem_cons.mp htracks
      obtain ⟨hnext, hextends⟩ := List.forall_mem_cons.mp hextends
      obtain ⟨hend, hfailed⟩ := List.forall_mem_cons.mp hfailed
      refine .cons ?_ (ih hextends hfailed _ hrest htracks)
      rw [hlook.category] at hnext hend ⊢
      exact hshadow.refill htrack hlook hnext.1 hend

/-- **A step and its shadow** pick the same. -/
theorem Casts.after (h : Casts o before { p with sources := ss }
      { q with sources := (o.asFound answers).looked q })
    (hpicked : ∀ id ∈ p.seen, o.busy p id = true) (slots : Nat) :
    ((o.asFound answers).batch slots q).2 = (draw (o.busy p) slots ss p.seen).2 ∧
      Casts o before (o.onward slots p ss) ((o.asFound answers).after slots q) := by
  obtain ⟨hsources, hseen, hscheduled⟩ := h
  dsimp only at hseen hscheduled
  have hbusy : (o.asFound answers).busy q = o.busy p := by
    funext id
    rw [busy, busy, hscheduled]
    rfl
  obtain ⟨hsame, hdrawn⟩ :=
    draw_of_idles (idles_shadows (o.busy p) before) hsources slots p.seen
  have hbatch : (o.asFound answers).batch slots q =
      draw (o.busy p) slots ((o.asFound answers).looked q) p.seen := by
    rw [batch, hbusy, hseen]
  rw [Outlook.after, hbatch, hsame, hscheduled]
  refine ⟨rfl, ?_, rfl, rfl⟩
  exact hdrawn.imp fun s t hst => hst.mono fun id hid => busy_onward hpicked (.inr hid)

/-- When all sources are done their shadows come to an end too, and nothing more is picked. -/
theorem exists_sweep_of_done (hslots : slots ≠ 0) (hcourse : OnCourse o before p)
    (hdone : ∀ s ∈ p.sources, s.isDone = true) (hextends : Extends before answers p) :
    ∀ (count : Nat) {q : Progress}, (∀ t ∈ q.sources, t.buffer = []) →
      Casts o before p { q with sources := (o.asFound answers).looked q } →
      (∀ t ∈ q.sources, (o.asFound answers).lookups t ≤ count) →
      ∃ q', (o.asFound answers).sweep (count + 1) slots q = (.finished, q') ∧ Casts o before p q'
  | count, q, hempty, hcasts, hcount => by
      by_cases hall : ((o.asFound answers).looked q).all Source.isDone = true
      · exact ⟨_, sweep_of_done hslots count hall, hcasts⟩
      cases count with
      | zero =>
        refine absurd (List.all_eq_true.mpr fun t ht => ?_) hall
        obtain ⟨s, hs, rfl⟩ := List.mem_map.mp ht
        exact isDone_of_lookups (hempty s hs) (Nat.le_zero.mp (hcount s hs))
      | succ count =>
        -- the sources have nothing to hand out
        have hidle : draw (o.busy p) slots p.sources p.seen = (p.sources, ⟨[], p.seen⟩) :=
          rounds_of_empty (fun s hs => (isDone_iff.mp (hdone s hs)).2) _ _
        have honward : o.onward slots p p.sources = p := by
          rw [onward, hidle, List.append_nil]
        obtain ⟨hsame, hafter⟩ := Casts.after hcasts hcourse.seen slots
        have hnothing : ((o.asFound answers).batch slots q).2.batch = [] := by
          rw [hsame, hidle]
        rw [honward] at hafter
        have hroom : ((o.asFound answers).batch slots q).2.batch.length < slots := by
          rw [hnothing]
          exact Nat.pos_of_ne_zero hslots
        have hstays : LooksAll o (fun _ => []) p p.sources := by
          refine ⟨List.forall₂_same.mpr fun s hs => .notDue fun hdue => ?_, fun _ _ => rfl⟩
          have hexhausted := (isDone_iff.mp (hdone s hs)).1
          rw [(isDue_iff.mp hdue).2] at hexhausted
          cases hexhausted
        have hextends' : Extends (fun c => before c ++ []) answers p := by simpa using hextends
        have hlooked := hafter.looked hcourse hstays hextends'
        simp only [List.append_nil] at hlooked
        rw [sweep_of_step hslots _ hall, hnothing, List.length_nil, Nat.sub_zero]
        refine exists_sweep_of_done hslots hcourse hdone hextends count
          (fun t ht => (origin_of_after hroom ht).1) hlooked fun t ht => ?_
        obtain ⟨-, s, hs, -, -, hlookups, -⟩ := origin_of_after hroom ht
        rw [hlookups]
        exact lookups_refill_le (hempty s hs) (hcount s hs)

/-! ## Runs of steps -/

/-- What steps come to that begin with `p` and room for `slots` jobs, after the answers `before`, if
`answers` are all they are given: they keep their course, and they are a sweep that sees only what
is found. -/
structure Comes (o : Outlook) (slots : Nat) (before answers : Category → Answers) (p : Progress)
    (r : Ending × Progress) : Prop where
  course : OnCourse o answers r.2
  categories : r.2.sources.map (·.category) = p.sources.map (·.category)
  elsewhere : ∀ c, c ∉ p.sources.map (·.category) → answers c = before c
  goesOn : Extends before answers p
  shadow {q : Progress} : Casts o before p q → (slots ≠ 0 → ∀ t ∈ q.sources, t.buffer = []) →
    ∃ count, Casts o answers r.2 ((o.asFound answers).sweep count slots q).2 ∧
      (r.1 = .finished ↔ ((o.asFound answers).sweep count slots q).1 = .finished)

namespace Comes

variable {r : Ending × Progress}

/-- Steps that are cut short, or run out. -/
theorem cutShort (hcourse : OnCourse o before p) (slots : Nat) {ending : Ending}
    (hending : ending ≠ .finished) : Comes o slots before before p (ending, p) where
  course := hcourse
  categories := rfl
  elsewhere _ _ := rfl
  goesOn := .refl before p
  shadow hcasts _ := ⟨0, hcasts, iff_of_false hending nofun⟩

/-- There is no room. -/
theorem full (hcourse : OnCourse o before p) : Comes o 0 before before p (.finished, p) where
  course := hcourse
  categories := rfl
  elsewhere _ _ := rfl
  goesOn := .refl before p
  shadow hcasts _ := ⟨1, hcasts, Iff.rfl⟩

/-- Nothing is left. -/
theorem done (hslots : slots ≠ 0) (hcourse : OnCourse o before p) (hlooks : LooksAll o new p ss)
    (hdone : ss.all Source.isDone = true) :
    Comes o slots before (fun c => before c ++ new c) p (.finished, { p with sources := ss }) where
  course := hcourse.looked hlooks
  categories := hlooks.categories
  elsewhere c hc := by rw [hlooks.elsewhere c hc, List.append_nil]
  goesOn := .of_looked hlooks (.refl _ _)
  shadow {q} hcasts hempty := by
    obtain ⟨count, hcount⟩ : ∃ count, ∀ t ∈ q.sources,
        (o.asFound fun c => before c ++ new c).lookups t ≤ count :=
      ⟨_, fun t ht => List.le_max?_getD_of_mem (k := 0) (List.mem_map_of_mem ht)⟩
    obtain ⟨q', hsweep, hcasts'⟩ := exists_sweep_of_done hslots (hcourse.looked hlooks)
      (List.all_eq_true.mp hdone) (.refl _ _) count (hempty hslots)
      (hcasts.looked hcourse hlooks (.refl _ _)) hcount
    exact ⟨count + 1, by rw [hsweep]; exact hcasts', by rw [hsweep]⟩

/-- **A step** before others. -/
theorem step (hslots : slots ≠ 0) (hcourse : OnCourse o before p) (hlooks : LooksAll o new p ss)
    (hdone : ¬ ss.all Source.isDone = true)
    (h : Comes o (slots - (draw (o.busy p) slots ss p.seen).2.batch.length)
      (fun c => before c ++ new c) answers (o.onward slots p ss) r) :
    Comes o slots before answers p r where
  course := h.course
  categories := h.categories.trans (hlooks.categories_onward slots)
  elsewhere c hc := by
    have hsame := h.elsewhere c (by rwa [hlooks.categories_onward slots])
    rw [hsame, hlooks.elsewhere c hc, List.append_nil]
  goesOn := .of_looked hlooks h.goesOn.of_onward
  shadow {q} hcasts hempty := by
    have hlooked := hcasts.looked hcourse hlooks h.goesOn.of_onward
    -- a source that is not done has not been given up, so it is its own shadow
    have hnot : ¬ ((o.asFound answers).looked q).all Source.isDone = true := by
      refine fun hall => hdone (List.all_eq_true.mpr fun s hs => ?_)
      obtain ⟨t, ht, hshadow⟩ := exists_right_of_forall₂ hlooked.sources hs
      by_cases hfailed : none ∈ before s.category ++ new s.category
      · exact ((hcourse.looked hlooks).tracks s hs).givenUp hfailed
      · rw [← hshadow.eq_of_not_failed hfailed]
        exact List.all_eq_true.mp hall t ht
    obtain ⟨hsame, hafter⟩ := hlooked.after hcourse.seen slots
    have hbatch := (o.asFound answers).batchOf_batch slots q
    obtain ⟨count, hend⟩ := h.shadow hafter fun hroom t ht => by
      rw [← hsame] at hroom
      exact hbatch.exhausts (by omega) t ht
    refine ⟨count + 1, ?_⟩
    rw [sweep_of_step hslots count hnot, hsame]
    exact hend

end Comes

end Outlook

end GeoReplication
