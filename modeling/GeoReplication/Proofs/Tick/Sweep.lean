import GeoReplication.Proofs.Tick.FixedAnswers
import GeoReplication.Proofs.Tick.Pages
import GeoReplication.Tick.Basic

/-!
# Proofs/Tick/Sweep — a tick as a value

While nothing else goes on, the steps of a tick depend on three things: the candidates of each
category, the size of a page and the numbers in flight.  An `Outlook` is these three, and
`Outlook.sweep` are the steps as a value.

A sweep picks nothing twice and nothing but free candidates (`Sound`); as long as there is room,
every free candidate has been picked or is still to come (`Covering`).  So it ends with no room or
no free candidate left (`swept_sweep`).
-/

namespace GeoReplication

open Scheduler Source

/-- What a tick sees, as long as nobody else does anything. -/
structure Outlook where
  /-- by number -/
  candidates : Category → List Int
  ascending (c : Category) : (candidates c).Pairwise (· < ·)
  positive (c : Category) : ∀ id ∈ candidates c, 0 < id
  pageSize : Nat
  pageSize_pos : 0 < pageSize
  /-- pending or running before the tick -/
  inFlight : Int → Bool

namespace Outlook

variable {o : Outlook} {cs : List Category} {p : Progress} {s : Source} {c d : Nat} {id : Int}

/-- The next page of a source, if it is due. -/
def refill (o : Outlook) (s : Source) : Source :=
  if s.isDue then
    s.accept o.pageSize (Store.limited o.pageSize (behind (o.candidates s.category) s.afterId))
  else s

/-- The sources after their look-ups. -/
def looked (o : Outlook) (p : Progress) : List Source := p.sources.map o.refill

/-- In flight before the tick, or since it began. -/
def busy (o : Outlook) (p : Progress) (id : Int) : Bool := o.inFlight id || p.scheduled.contains id

/-- The batch of a step with room for `slots` jobs. -/
def batch (o : Outlook) (slots : Nat) (p : Progress) : List Source × Picked :=
  draw (o.busy p) slots (o.looked p) p.seen

/-- Where a step leads. -/
def after (o : Outlook) (slots : Nat) (p : Progress) : Progress :=
  ⟨(o.batch slots p).1, (o.batch slots p).2.seen, p.scheduled ++ (o.batch slots p).2.batch⟩

/-- At most `count` steps, with room for `slots` jobs. -/
def sweep (o : Outlook) : (count slots : Nat) → Progress → Ending × Progress
  | 0, _, p => (.outOfSteps, p)
  | count + 1, slots, p =>
    if slots = 0 then (.finished, p)
    else
      if (o.looked p).all Source.isDone then (.finished, { p with sources := o.looked p })
      else o.sweep count (slots - (o.batch slots p).2.batch.length) (o.after slots p)

/-- A candidate of one of the categories that is not in flight. -/
def Free (o : Outlook) (cs : List Category) (id : Int) : Prop :=
  o.inFlight id = false ∧ ∃ c ∈ cs, id ∈ o.candidates c

/-- What a source has still to look up. -/
def toCome (o : Outlook) (s : Source) : List Int := s.toCome (o.candidates s.category)

/-- A bound on the pages a source has still to look up. -/
def lookups (o : Outlook) (s : Source) : Nat := s.lookups (o.candidates s.category)

/-! ## Looking up -/

theorem looksUp_refill (hdue : s.isDue = true) :
    LooksUp (o.candidates s.category) s (o.refill s) := by
  rw [refill, if_pos hdue]
  exact looksUp_accept o.pageSize_pos (o.ascending _) (o.positive _) hdue (isPage_limited _ _)

theorem refill_of_exhausted (hs : s.exhausted = true) : o.refill s = s := by
  simp [refill, isDue, hs]

@[simp] theorem category_refill (o : Outlook) (s : Source) :
    (o.refill s).category = s.category := by
  by_cases hdue : s.isDue = true
  · exact (looksUp_refill hdue).category
  · rw [refill, if_neg hdue]

/-- Nothing is lost between the buffer and what is to come. -/
theorem buffer_append_toCome_refill (hs : s.buffer = []) :
    (o.refill s).buffer ++ o.toCome (o.refill s) = o.toCome s := by
  by_cases hdue : s.isDue = true
  · rw [toCome, category_refill]
    exact (looksUp_refill hdue).keeps
  · rw [refill, if_neg hdue, hs, List.nil_append]

theorem mem_candidates_of_mem_buffer_refill (hs : s.buffer = []) (hid : id ∈ (o.refill s).buffer) :
    id ∈ o.candidates s.category := by
  have hcome : id ∈ o.toCome s := by
    rw [← buffer_append_toCome_refill hs]
    exact List.mem_append_left _ hid
  exact mem_of_mem_toCome hcome

/-- Each step brings a source closer to its end. -/
theorem lookups_refill_le (hs : s.buffer = []) {k : Nat} (hk : o.lookups s ≤ k + 1) :
    o.lookups (o.refill s) ≤ k := by
  cases hex : s.exhausted with
  | true =>
    rw [refill_of_exhausted hex, lookups, Source.lookups, if_pos hex]
    exact Nat.zero_le k
  | false =>
    have hcloser := (looksUp_refill (o := o) (s := s) (by simp [isDue, hs, hex])).closer
    rw [lookups, category_refill]
    rw [lookups] at hk
    omega

/-- A source that has nothing to look up is done. -/
theorem isDone_of_lookups (hs : s.buffer = []) (hk : o.lookups s = 0) :
    (o.refill s).isDone = true := by
  have hex : s.exhausted = true := lookups_eq_zero_iff.mp hk
  simp [refill_of_exhausted hex, isDone, hex, hs]

/-- A source that is done has nothing to come. -/
theorem toCome_of_isDone (hs : s.isDone = true) : o.toCome s = [] := by
  simp only [isDone, Bool.and_eq_true] at hs
  rw [toCome, Source.toCome, if_pos hs.1]

/-! ## Picking -/

/-- Nothing is picked twice, and nothing but free candidates. -/
structure Sound (o : Outlook) (cs : List Category) (p : Progress) : Prop where
  categories : p.sources.map (·.category) = cs
  seen (id : Int) : id ∈ p.seen ↔ id ∈ p.scheduled
  nodup : p.scheduled.Nodup
  free : ∀ id ∈ p.scheduled, o.Free cs id

/-- Every free candidate has been picked or is still to come. -/
structure Covering (o : Outlook) (p : Progress) : Prop where
  emptied : ∀ s ∈ p.sources, s.buffer = []
  covers : ∀ s ∈ p.sources, ∀ id ∈ o.candidates s.category, o.inFlight id = false →
    id ∈ p.scheduled ∨ id ∈ o.toCome s

theorem batchOf_batch (o : Outlook) (slots : Nat) (p : Progress) :
    BatchOf (Truth (o.busy p)) slots (o.looked p) ⟨[], p.seen⟩ (o.batch slots p).1
      (o.batch slots p).2 :=
  batchOf_draw (o.busy p) slots (o.looked p) p.seen

@[simp] theorem categories_looked (o : Outlook) (p : Progress) :
    (o.looked p).map (·.category) = p.sources.map (·.category) := by
  simp [looked, Function.comp_def]

theorem busy_eq_true : o.busy p id = true ↔ o.inFlight id = true ∨ id ∈ p.scheduled := by
  rw [busy, Bool.or_eq_true, List.contains_iff_mem]

theorem busy_eq_false : o.busy p id = false ↔ o.inFlight id = false ∧ id ∉ p.scheduled := by
  rw [← Bool.not_eq_true, busy_eq_true, not_or, Bool.not_eq_true]

theorem length_batch_le (o : Outlook) (slots : Nat) (p : Progress) :
    (o.batch slots p).2.batch.length ≤ slots := (o.batchOf_batch slots p).fits (Nat.zero_le _)

/-- A step picks nothing twice and nothing but free candidates. -/
theorem Sound.after (slots : Nat) (h : Sound o cs p) (hempty : ∀ s ∈ p.sources, s.buffer = []) :
    Sound o cs (o.after slots p) := by
  have hbatch := o.batchOf_batch slots p
  obtain ⟨new, hnew⟩ := hbatch.picks.adds
  have hpicked : (o.batch slots p).2.batch = new := hnew.batch
  refine ⟨?_, fun id => ?_, ?_, fun id hid => ?_⟩
  · exact (hbatch.picks.categories.trans (categories_looked o p)).trans h.categories
  · rw [Outlook.after, hnew.mem_seen, hpicked, h.seen, List.mem_append, or_comm]
  · rw [Outlook.after, hpicked, List.nodup_append]
    refine ⟨h.nodup, hnew.nodup, fun id hid id' hid' he => ?_⟩
    subst he
    exact hnew.fresh id hid' ((h.seen id).mpr hid)
  · rw [Outlook.after, hpicked, List.mem_append] at hid
    rcases hid with hid | hid
    · exact h.free id hid
    · obtain ⟨t, ht, hbuffer⟩ := hnew.pool id hid
      obtain ⟨s, hs, rfl⟩ := List.mem_map.mp ht
      refine ⟨(busy_eq_false.mp (hnew.free id hid).symm).1, s.category, ?_, ?_⟩
      · rw [← h.categories]
        exact List.mem_map_of_mem hs
      · exact mem_candidates_of_mem_buffer_refill (hempty s hs) hbuffer

/-- A source after a step in which it had to hand out all it had looked up. -/
theorem origin_of_after {slots : Nat} (hroom : (o.batch slots p).2.batch.length < slots)
    {t : Source} (ht : t ∈ (o.after slots p).sources) :
    t.buffer = [] ∧ ∃ s ∈ p.sources, t.category = s.category ∧
      o.toCome t = o.toCome (o.refill s) ∧ o.lookups t = o.lookups (o.refill s) ∧
      ∀ id ∈ (o.refill s).buffer, id ∈ (o.after slots p).seen ∨ o.busy p id = true := by
  have hbatch := o.batchOf_batch slots p
  have hempty := hbatch.exhausts hroom t ht
  obtain ⟨u, hu, k, rfl, hgone⟩ := hbatch.picks.origin ht
  obtain ⟨s, hs, rfl⟩ := List.mem_map.mp hu
  refine ⟨hempty, s, hs, category_refill o s, rfl, rfl, fun id hid => ?_⟩
  have hall : (o.refill s).buffer.take k = (o.refill s).buffer := by
    rw [buffer_handOut] at hempty
    rw [← List.take_append_drop k (o.refill s).buffer, hempty, List.append_nil, List.take_take,
      Nat.min_self]
  rw [← hall] at hid
  exact (hgone id hid).imp_right Eq.symm

/-- As long as there is room, a step loses nothing. -/
theorem Covering.after {slots : Nat} (h : Covering o p) (hsound : Sound o cs (o.after slots p))
    (hroom : (o.batch slots p).2.batch.length < slots) : Covering o (o.after slots p) where
  emptied t ht := (origin_of_after hroom ht).1
  covers t ht id hid hfree := by
    obtain ⟨-, s, hs, hcategory, htoCome, -, hgone⟩ := origin_of_after hroom ht
    rw [hcategory] at hid
    rcases h.covers s hs id hid hfree with hdone | hcome
    · exact .inl (List.mem_append_left _ hdone)
    rw [← buffer_append_toCome_refill (h.emptied s hs), List.mem_append] at hcome
    rcases hcome with hbuffer | hcome
    · rcases hgone id hbuffer with hseen | hbusy
      · exact .inl ((hsound.seen id).mp hseen)
      · rcases busy_eq_true.mp hbusy with hflight | hdone
        · rw [hfree] at hflight
          cases hflight
        · exact .inl (List.mem_append_left _ hdone)
    · exact .inr (htoCome ▸ hcome)

/-! ## Sweeping -/

theorem sweep_of_full (o : Outlook) (count : Nat) (p : Progress) :
    o.sweep (count + 1) 0 p = (.finished, p) := rfl

theorem sweep_of_done {slots : Nat} (hslots : slots ≠ 0) (count : Nat)
    (hdone : (o.looked p).all Source.isDone = true) :
    o.sweep (count + 1) slots p = (.finished, { p with sources := o.looked p }) := by
  rw [sweep, if_neg hslots, if_pos hdone]

theorem sweep_of_step {slots : Nat} (hslots : slots ≠ 0) (count : Nat)
    (hdone : ¬ (o.looked p).all Source.isDone = true) :
    o.sweep (count + 1) slots p =
      o.sweep count (slots - (o.batch slots p).2.batch.length) (o.after slots p) := by
  rw [sweep, if_neg hslots, if_neg hdone]

/-- What a sweep comes to: it fills the room, or picks every free candidate. -/
structure Swept (o : Outlook) (cs : List Category) (slots : Nat) (p : Progress)
    (r : Ending × Progress) : Prop where
  finished : r.1 = .finished
  sound : Sound o cs r.2
  fills : ∃ new, r.2.scheduled = p.scheduled ++ new ∧ new.length ≤ slots ∧
    (new.length < slots → ∀ id, o.Free cs id → id ∈ r.2.scheduled)

/-- When every source is done, every free candidate has been picked. -/
theorem Covering.all_of_done (h : Covering o p) (hs : Sound o cs p)
    (hdone : (o.looked p).all Source.isDone = true) : ∀ id, o.Free cs id → id ∈ p.scheduled := by
  rintro id ⟨hfree, c, hc, hid⟩
  rw [← hs.categories] at hc
  obtain ⟨s, hmem, rfl⟩ := List.mem_map.mp hc
  refine (h.covers s hmem id hid hfree).resolve_right fun hcome => ?_
  have hs' : (o.refill s).isDone = true :=
    List.all_eq_true.mp hdone _ (List.mem_map_of_mem hmem)
  have hbuffer : (o.refill s).buffer = [] := by
    simp only [isDone, Bool.and_eq_true, List.isEmpty_iff] at hs'
    exact hs'.2
  rw [← buffer_append_toCome_refill (h.emptied s hmem), hbuffer, toCome_of_isDone hs'] at hcome
  exact List.not_mem_nil hcome

theorem swept_of_full (hs : Sound o cs p) : Swept o cs 0 p (.finished, p) :=
  ⟨rfl, hs, [], (List.append_nil _).symm, Nat.le_refl _, fun h => absurd h (Nat.lt_irrefl _)⟩

theorem swept_of_done {slots : Nat} (hs : Sound o cs p) (hc : Covering o p)
    (hdone : (o.looked p).all Source.isDone = true) :
    Swept o cs slots p (.finished, { p with sources := o.looked p }) := by
  refine ⟨rfl, ⟨?_, hs.seen, hs.nodup, hs.free⟩, [], by simp, Nat.zero_le _, fun _ => ?_⟩
  · exact (categories_looked o p).trans hs.categories
  · exact hc.all_of_done hs hdone

/-- **A sweep** with enough steps ends with no room or no free candidate left. -/
theorem swept_sweep : ∀ (count slots : Nat) (p : Progress), Sound o cs p → Covering o p →
    (∀ s ∈ p.sources, o.lookups s ≤ count) → Swept o cs slots p (o.sweep (count + 1) slots p) := by
  intro count
  induction count with
  | zero =>
    intro slots p hs hc hk
    by_cases hslots : slots = 0
    · rw [hslots, sweep_of_full]
      exact swept_of_full hs
    have hdone : (o.looked p).all Source.isDone = true := by
      refine List.all_eq_true.mpr fun t ht => ?_
      obtain ⟨s, hmem, rfl⟩ := List.mem_map.mp ht
      exact isDone_of_lookups (hc.emptied s hmem) (Nat.le_zero.mp (hk s hmem))
    rw [sweep_of_done hslots 0 hdone]
    exact swept_of_done hs hc hdone
  | succ count ih =>
    intro slots p hs hc hk
    by_cases hslots : slots = 0
    · rw [hslots, sweep_of_full]
      exact swept_of_full hs
    by_cases hdone : (o.looked p).all Source.isDone = true
    · rw [sweep_of_done hslots _ hdone]
      exact swept_of_done hs hc hdone
    rw [sweep_of_step hslots _ hdone]
    have hsound := hs.after slots hc.emptied
    by_cases hroom : (o.batch slots p).2.batch.length < slots
    · -- the buffers are empty again, and every source has come closer to its end
      have hk' : ∀ t ∈ (o.after slots p).sources, o.lookups t ≤ count := fun t ht => by
        obtain ⟨-, s, hmem, -, -, hlookups, -⟩ := origin_of_after hroom ht
        rw [hlookups]
        exact lookups_refill_le (hc.emptied s hmem) (hk s hmem)
      obtain ⟨hfin, hsound', new, hnew, hlen, hfills⟩ :=
        ih (slots - (o.batch slots p).2.batch.length) _ hsound (hc.after hsound hroom) hk'
      refine ⟨hfin, hsound', (o.batch slots p).2.batch ++ new, ?_, ?_, fun h => hfills ?_⟩
      · rw [hnew, Outlook.after, List.append_assoc]
      · rw [List.length_append]
        omega
      · rw [List.length_append] at h
        omega
    · have hfull : (o.batch slots p).2.batch.length = slots :=
        Nat.le_antisymm (length_batch_le o slots p) (Nat.not_lt.mp hroom)
      rw [hfull, Nat.sub_self, sweep_of_full]
      exact ⟨rfl, hsound, _, rfl, Nat.le_of_eq hfull, fun h => absurd h (by omega)⟩

/-! ## The start -/

/-- A sweep begins with the sources where the last tick left off, and nothing picked. -/
def outset (cs : List Category) (start : Category → Int) : Progress :=
  ⟨cs.map fun c => Source.begin c (start c), [], []⟩

theorem sound_outset (o : Outlook) (cs : List Category) (start : Category → Int) :
    Sound o cs (outset cs start) where
  categories := by simp [outset, Function.comp_def, Source.begin]
  seen _ := Iff.rfl
  nodup := List.nodup_nil
  free _ h := absurd h List.not_mem_nil

/-- Wherever the last tick left off, every candidate is to come. -/
theorem covering_outset (o : Outlook) (cs : List Category) (start : Category → Int) :
    Covering o (outset cs start) where
  emptied s hs := by
    obtain ⟨c, -, rfl⟩ := List.mem_map.mp hs
    rfl
  covers s hs id hid _ := by
    obtain ⟨c, -, rfl⟩ := List.mem_map.mp hs
    exact .inr ((mem_toCome_begin (o.ascending c) (o.positive c) c (start c)).mpr hid)

/-! ## More room -/

theorem scheduled_begins (o : Outlook) : ∀ (count slots : Nat) (p : Progress),
    p.scheduled <+: (o.sweep count slots p).2.scheduled
  | 0, _, _ => List.prefix_rfl
  | count + 1, slots, p => by
      rw [sweep]
      split
      · exact List.prefix_rfl
      split
      · exact List.prefix_rfl
      · exact (List.prefix_append _ _).trans (o.scheduled_begins count _ (o.after slots p))

theorem scheduled_of_full (o : Outlook) (count : Nat) (p : Progress) :
    (o.sweep count 0 p).2.scheduled = p.scheduled := by
  cases count <;> rfl

/-- **More room** lets a sweep go on, and changes nothing that it picks with less. -/
theorem sweep_more : ∀ (count : Nat) {c d : Nat} (p : Progress), c ≤ d → ∃ new,
    (o.sweep count d p).2.scheduled = p.scheduled ++ new ∧
      (o.sweep count c p).2.scheduled = p.scheduled ++ new.take c
  | 0, c, d, p, _ => ⟨[], by simp [sweep], by simp [sweep]⟩
  | count + 1, c, d, p, hcd => by
      by_cases hc : c = 0
      · obtain ⟨new, hnew⟩ := o.scheduled_begins (count + 1) d p
        exact ⟨new, hnew.symm, by rw [hc, scheduled_of_full, List.take_zero, List.append_nil]⟩
      have hd : d ≠ 0 := by omega
      by_cases hdone : (o.looked p).all Source.isDone = true
      · rw [sweep_of_done hc count hdone, sweep_of_done hd count hdone]
        exact ⟨[], by simp, by simp⟩
      rw [sweep_of_step hc count hdone, sweep_of_step hd count hdone]
      have hcut : CutOff c (o.batch c p) (o.batch d p) := cutOff_draw (o.busy p) hcd _ _
      by_cases hroom : (o.batch c p).2.batch.length < c
      · -- both pick the same, and go on with as much less room
        have hbatch := hcut.same hroom
        have hafter : o.after d p = o.after c p := by rw [Outlook.after, Outlook.after, hbatch]
        rw [hafter, hbatch]
        obtain ⟨new, hmore, hless⟩ := sweep_more count (o.after c p)
          (Nat.sub_le_sub_right hcd (o.batch c p).2.batch.length)
        refine ⟨(o.batch c p).2.batch ++ new, ?_, ?_⟩
        · rw [hmore, Outlook.after, List.append_assoc]
        · rw [hless, Outlook.after, List.append_assoc, List.take_append,
            List.take_of_length_le (length_batch_le o c p)]
      · -- with less room it ends here
        have hfull : (o.batch c p).2.batch.length = c :=
          Nat.le_antisymm (length_batch_le o c p) (Nat.not_lt.mp hroom)
        have hlong : c ≤ (o.batch d p).2.batch.length := by
          have hlen := congrArg List.length hcut.batch
          rw [hfull, List.length_take] at hlen
          omega
        obtain ⟨new, hnew⟩ :=
          o.scheduled_begins count (d - (o.batch d p).2.batch.length) (o.after d p)
        rw [hfull, Nat.sub_self, scheduled_of_full]
        refine ⟨(o.batch d p).2.batch ++ new, ?_, ?_⟩
        · rw [← hnew, Outlook.after, List.append_assoc]
        · rw [List.take_append_of_le_length hlong, ← hcut.batch]
          rfl

/-- **More steps** change nothing once a sweep has ended. -/
theorem sweep_more_steps : ∀ (count more slots : Nat) (p : Progress),
    (o.sweep count slots p).1 = .finished → o.sweep (count + more) slots p = o.sweep count slots p
  | 0, _, _, _, h => by cases h
  | count + 1, more, slots, p, h => by
      rw [Nat.add_right_comm, sweep, sweep]
      split
      · rfl
      split
      · rfl
      · next hslots hdone =>
        rw [sweep_of_step hslots count hdone] at h
        exact sweep_more_steps count more _ _ h

theorem sweep_eq_of_finished {i j slots : Nat} (hi : (o.sweep i slots p).1 = .finished)
    (hj : (o.sweep j slots p).1 = .finished) : o.sweep i slots p = o.sweep j slots p := by
  rcases Nat.le_total i j with hle | hle
  · obtain ⟨more, rfl⟩ := Nat.exists_eq_add_of_le hle
    exact (sweep_more_steps i more slots p hi).symm
  · obtain ⟨more, rfl⟩ := Nat.exists_eq_add_of_le hle
    exact sweep_more_steps j more slots p hj

/-- Fewer steps dispatch the beginning of what more would. -/
theorem sweep_begins : ∀ (count more slots : Nat) (p : Progress),
    (o.sweep count slots p).2.scheduled <+: (o.sweep (count + more) slots p).2.scheduled
  | 0, more, slots, p => o.scheduled_begins (0 + more) slots p
  | count + 1, more, slots, p => by
      rw [Nat.add_right_comm, sweep, sweep]
      split
      · exact List.prefix_rfl
      split
      · exact List.prefix_rfl
      · exact sweep_begins count more _ _

theorem categories_sweep : ∀ (count slots : Nat) (p : Progress),
    (o.sweep count slots p).2.sources.map (·.category) = p.sources.map (·.category)
  | 0, _, _ => rfl
  | count + 1, slots, p => by
      rw [sweep]
      split
      · rfl
      split
      · exact categories_looked o p
      · rw [categories_sweep count]
        exact ((o.batchOf_batch slots p).picks.categories).trans (categories_looked o p)

/-! ## The first step -/

/-- A source whose first page holds a free candidate has a turn, if there is room for one job of
each. -/
theorem served_first (cs : List Category) (start : Category → Int) {slots : Nat}
    (hslots : cs.length ≤ slots) (count : Nat) {c : Category} (hc : c ∈ cs)
    (hid : id ∈ (o.refill (Source.begin c (start c))).buffer) (hfree : o.inFlight id = false) :
    ∃ id' ∈ o.candidates c, id' ∈ (o.sweep (count + 1) slots (outset cs start)).2.scheduled := by
  have hs : Source.begin c (start c) ∈ (outset cs start).sources :=
    List.mem_map_of_mem (f := fun c => Source.begin c (start c)) hc
  have hlooked : o.refill (Source.begin c (start c)) ∈ o.looked (outset cs start) :=
    List.mem_map_of_mem hs
  have hpos := List.length_pos_of_mem hc
  have hdone : ¬ (o.looked (outset cs start)).all Source.isDone = true := fun h => by
    have hnil := List.all_eq_true.mp h _ hlooked
    simp only [isDone, Bool.and_eq_true, List.isEmpty_iff] at hnil
    exact List.ne_nil_of_mem hid hnil.2
  rw [sweep_of_step (by omega) count hdone]
  have hfits : ([] : List Int).length + (o.looked (outset cs start)).length ≤ slots := by
    simpa [looked, outset] using hslots
  have hnotBusy : ¬ Truth (o.busy (outset cs start)) id true := by simp [busy, outset, hfree]
  obtain ⟨id', hbuffer, hseen⟩ :=
    (o.batchOf_batch slots (outset cs start)).served hfits _ hlooked id hid hnotBusy
  have hsound := (sound_outset o cs start).after slots (covering_outset o cs start).emptied
  exact ⟨id', mem_candidates_of_mem_buffer_refill rfl hbuffer,
    (o.scheduled_begins _ _ _).subset ((hsound.seen id').mp hseen)⟩

end Outlook

end GeoReplication
