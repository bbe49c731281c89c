import GeoReplication.Proofs.Tick.Ring
import GeoReplication.Proofs.Tick.Sweep
import Mathlib.Logic.Relation

/-!
# Proofs/Tick/Lap — a sweep when only one category has candidates

A batch is a sequence of pops: a source with a buffer hands out its first number, which is picked
unless it is busy or has been seen (`Source.Pop`, `pops_draw`).  When one category alone has
candidates, all pops are its own, so what a sweep picks are the numbers of its round in their order
(`Source.Lap`).  The round may come back to numbers that it began with, which are then not picked
again.  So the tick advances along the ring (`Outlook.advances_sweep`).
-/

namespace GeoReplication

open Relation Scheduler

/-- What comes of a number that is offered: it is passed over or picked. -/
inductive Picked.Offer (busy : Int → Bool) (p : Picked) (id : Int) : Picked → Prop
  | skip : busy id = true ∨ id ∈ p.seen → Offer busy p id p
  | pick : busy id = false → id ∉ p.seen → Offer busy p id ⟨p.batch ++ [id], id :: p.seen⟩

namespace Source

variable {busy : Int → Bool} {s : Source} {ss ss' : List Source} {p p' : Picked} {c : Category}
  {S full D : List Int} {id start : Int} {n : Nat}

/-! ## Pops -/

/-- One source hands out one number. -/
inductive Pop (busy : Int → Bool) : List Source × Picked → List Source × Picked → Prop
  | head {s : Source} {ss : List Source} {p p' : Picked} {id : Int} {rest : List Int} :
    s.buffer = id :: rest → p.Offer busy id p' → Pop busy (s :: ss, p) (s.pop id rest :: ss, p')
  | tail {s : Source} {ss ss' : List Source} {p p' : Picked} :
    Pop busy (ss, p) (ss', p') → Pop busy (s :: ss, p) (s :: ss', p')

theorem Pop.exists_buffer (hp : Pop busy (ss, p) (ss', p')) : ∃ s ∈ ss, s.buffer ≠ [] := by
  induction ss generalizing ss' with
  | nil => cases hp
  | cons s ss ih =>
    cases hp with
    | head hbuffer _ => exact ⟨s, List.mem_cons_self, by simp [hbuffer]⟩
    | tail hp =>
      obtain ⟨t, ht, hbuffer⟩ := ih hp
      exact ⟨t, List.mem_cons_of_mem _ ht, hbuffer⟩

theorem pops_turnFrom (ss : List Source) : ∀ (ids : List Int) (s : Source) (p : Picked),
    s.buffer = ids → ReflTransGen (Pop busy) (s :: ss, p)
      ((turnFrom (m := Id) busy s p ids).1 :: ss, (turnFrom (m := Id) busy s p ids).2)
  | [], _, _, _ => .refl
  | id :: rest, s, p, hs => by
      have hrest := pops_turnFrom ss rest (s.pop id rest) p rfl
      have hturn : turnFrom (m := Id) busy s p (id :: rest) =
          if busy id then turnFrom (m := Id) busy (s.pop id rest) p rest
          else if p.seen.contains id then turnFrom (m := Id) busy (s.pop id rest) p rest
          else (s.pop id rest, ⟨p.batch ++ [id], id :: p.seen⟩) := rfl
      rw [hturn]
      by_cases hbusy : busy id = true
      · rw [if_pos hbusy]
        exact .head (.head hs (.skip (.inl hbusy))) hrest
      rw [if_neg hbusy]
      by_cases hseen : p.seen.contains id = true
      · rw [if_pos hseen]
        exact .head (.head hs (.skip (.inr (List.contains_iff_mem.mp hseen)))) hrest
      · rw [if_neg hseen]
        have hfresh : id ∉ p.seen := fun h => hseen (List.contains_iff_mem.mpr h)
        exact .single (.head hs (.pick (Bool.not_eq_true _ ▸ hbusy) hfresh))

theorem pops_round (capacity : Nat) : ∀ (ss : List Source) (p : Picked),
    ReflTransGen (Pop busy) (ss, p) (round (m := Id) busy capacity ss p)
  | [], _ => .refl
  | s :: ss, p => by
      rw [round]
      split
      · exact .refl
      have hturn : ReflTransGen (Pop busy) (s :: ss, p)
          ((turn (m := Id) busy s p).1 :: ss, (turn (m := Id) busy s p).2) :=
        pops_turnFrom ss s.buffer s p rfl
      have hrest := (pops_round capacity ss (turn (m := Id) busy s p).2).lift
        (fun x : List Source × Picked => ((turn (m := Id) busy s p).1 :: x.1, x.2))
        fun _ _ => Pop.tail
      exact hturn.trans hrest

theorem pops_rounds (capacity : Nat) : ∀ (count : Nat) (ss : List Source) (p : Picked),
    ReflTransGen (Pop busy) (ss, p) (rounds (m := Id) busy capacity count ss p)
  | 0, _, _ => .refl
  | count + 1, ss, p => by
      rw [rounds]
      split
      · exact (pops_round capacity ss p).trans (pops_rounds capacity count _ _)
      · exact .refl

/-- **A batch is a sequence of pops.** -/
theorem pops_draw (busy : Int → Bool) (capacity : Nat) (ss : List Source) (seen : List Int) :
    ReflTransGen (Pop busy) (ss, ⟨[], seen⟩) (draw busy capacity ss seen) :=
  pops_rounds capacity _ ss _

/-! ## One source among idle ones -/

/-- One of the sources is of category `c` and as `Q` says, and the others are idle. -/
inductive Sole (c : Category) (idle Q : Source → Prop) : List Source → Prop
  | here {s : Source} {ss : List Source} : s.category = c → Q s → (∀ t ∈ ss, idle t) →
    Sole c idle Q (s :: ss)
  | there {s : Source} {ss : List Source} : idle s → Sole c idle Q ss → Sole c idle Q (s :: ss)

namespace Sole

variable {idle Q Q' : Source → Prop}

theorem exists_mem (h : Sole c idle Q ss) : ∃ s ∈ ss, s.category = c ∧ Q s := by
  induction h with
  | here hc hQ _ => exact ⟨_, List.mem_cons_self, hc, hQ⟩
  | there _ _ ih =>
    obtain ⟨s, hs, hQ⟩ := ih
    exact ⟨s, List.mem_cons_of_mem _ hs, hQ⟩

theorem map {f : Source → Source} (h : Sole c idle Q ss) (hc : ∀ s, (f s).category = s.category)
    (hidle : ∀ s, idle s → idle (f s)) (hQ : ∀ s, s.category = c → Q s → Q' (f s)) :
    Sole c idle Q' (ss.map f) := by
  induction h with
  | here hs hq hss =>
    refine .here ((hc _).trans hs) (hQ _ hs hq) fun t ht => ?_
    obtain ⟨u, hu, rfl⟩ := List.mem_map.mp ht
    exact hidle u (hss u hu)
  | there hs _ ih => exact .there (hidle _ hs) ih

/-- A source that pops is the one that is not idle. -/
theorem pop (h : Sole c idle Q ss) (hidle : ∀ s, idle s → s.buffer = [])
    (hp : Pop busy (ss, p) (ss', p')) :
    ∃ s id rest, s.category = c ∧ Q s ∧ s.buffer = id :: rest ∧ p.Offer busy id p' ∧
      ∀ Q' : Source → Prop, Q' (s.pop id rest) → Sole c idle Q' ss' := by
  induction h generalizing ss' with
  | @here s ss hs hq hss =>
    cases hp with
    | head hbuffer hoffer => exact ⟨s, _, _, hs, hq, hbuffer, hoffer, fun _ hq' => .here hs hq' hss⟩
    | tail hp =>
      obtain ⟨t, ht, hbuffer⟩ := hp.exists_buffer
      exact absurd (hidle t (hss t ht)) hbuffer
  | there hs _ ih =>
    cases hp with
    | head hbuffer _ =>
      rw [hidle _ hs] at hbuffer
      cases hbuffer
    | tail hp =>
      obtain ⟨s, id, rest, hc, hq, hbuffer, hoffer, hnext⟩ := ih hp
      exact ⟨s, id, rest, hc, hq, hbuffer, hoffer, fun Q' hq' => .there hs (hnext Q' hq')⟩

end Sole

/-! ## A round without repetitions -/

/-- **A round is the ring**, unless it begins behind a negative number. -/
theorem toCome_begin (hS : S.Pairwise (· < ·)) (hpos : ∀ id ∈ S, 0 < id) (hstart : 0 ≤ start)
    (c : Category) : (Source.begin c start).toCome S = ring S start := by
  rcases Int.lt_or_eq_of_le hstart with hpos' | rfl
  · have hwrapped : (start == 0) = false := beq_eq_false_iff_ne.mpr (by omega)
    have hsecond : upTo S start = S.filter (· ≤ start) := by
      rw [upTo, if_pos hpos']
      conv_lhs => rw [← filter_le_append_behind hS start]
      rw [List.takeWhile_append_of_pos fun id hid => (List.mem_filter.mp hid).2]
      have hstop : (behind S start).takeWhile (· ≤ start) = [] := by
        refine List.eq_nil_iff_forall_not_mem.mpr fun id hid => ?_
        have hle := List.mem_takeWhile_imp hid
        rw [decide_eq_true_eq] at hle
        have hlt : start < id := of_decide_eq_true
          (List.mem_filter.mp ((List.takeWhile_sublist _).subset hid)).2
        omega
      rw [hstop, List.append_nil]
    simp only [toCome, Source.begin, hwrapped, Bool.false_eq_true, if_false, hsecond]
    rfl
  · have hnone : S.filter (· ≤ 0) = [] := List.filter_eq_nil_iff.mpr fun id hid => by
      have := hpos id hid
      simp only [decide_eq_true_eq]
      omega
    simp [toCome, Source.begin, upTo, ring, behind_zero hpos, hnone]

/-- Where the round begins again the ring ends. -/
theorem take_toCome_begin (hS : S.Pairwise (· < ·)) (hpos : ∀ id ∈ S, 0 < id) (c : Category)
    (start : Int) : ((Source.begin c start).toCome S).take S.length = ring S start := by
  rcases Int.lt_or_le start 0 with hneg | hstart
  · -- all of it lies behind a negative number, and comes twice
    have hall : behind S start = S := List.filter_eq_self.mpr fun id hid =>
      decide_eq_true (Int.lt_trans hneg (hpos id hid))
    have hnone : S.filter (· ≤ start) = [] := List.filter_eq_nil_iff.mpr fun id hid => by
      have := hpos id hid
      simp only [decide_eq_true_eq]
      omega
    have hwrapped : (start == 0) = false := beq_eq_false_iff_ne.mpr (by omega)
    have hagain : upTo S start = S := if_neg (by omega)
    simp only [toCome, Source.begin, hwrapped, Bool.false_eq_true, if_false, ring, hall, hnone,
      hagain, List.take_left, List.append_nil]
  · rw [toCome_begin hS hpos hstart, ← (ring_perm S start).length_eq, List.take_length]

/-- A number that comes up again comes behind the first `n`. -/
theorem take_concat_of_mem {P T : List Int} (hP : P ++ id :: T = full)
    (hnodup : (full.take n).Nodup) (hid : id ∈ P.take n) : (P ++ [id]).take n = P.take n := by
  have hlong : n ≤ P.length := by
    by_contra hshort
    have hbegins : P ++ [id] <+: full.take n := by
      rw [← hP, List.prefix_take_iff, List.length_append, List.length_singleton]
      exact ⟨⟨T, by simp⟩, by omega⟩
    exact (List.nodup_append.mp (hnodup.sublist hbegins.sublist)).2.2 id
      (List.mem_of_mem_take hid) id (List.mem_singleton_self id) rfl
  rw [List.take_append_of_le_length hlong]

/-- A number that comes up first is one of the first `n`. -/
theorem take_concat_of_notMem {P T : List Int} (hP : P ++ id :: T = full)
    (hfull : ∀ id ∈ full, id ∈ full.take n) (hid : id ∉ P.take n) :
    (P ++ [id]).take n = P.take n ++ [id] := by
  have hshort : P.length < n := by
    by_contra hlong
    have hmem := hfull id (by simp [← hP])
    rw [← hP, List.take_append_of_le_length (Nat.not_lt.mp hlong)] at hmem
    exact hid hmem
  rw [List.take_of_length_le (Nat.le_of_lt hshort), List.take_of_length_le]
  rwa [List.length_append, List.length_singleton]

/-- A source on its way round: what it has handed out and has still to hand out make up `full`, and
`D` was dispatched, which is all of it up to the first `n`. -/
structure Lap (all full : List Int) (n : Nat) (start : Int) (D : List Int) (s : Source) :
    Prop where
  start : s.start = start
  taken : ∃ P, P ++ (s.buffer ++ s.toCome all) = full ∧ s.lastTaken = P.getLast? ∧ D = P.take n

/-- A pop goes on with the lap. -/
theorem Lap.pop {all rest : List Int} (h : Lap all full n start (D ++ p.batch) s)
    (hnodup : (full.take n).Nodup) (hfull : ∀ id ∈ full, id ∈ full.take n)
    (hbuffer : s.buffer = id :: rest) (hoffer : p.Offer busy id p')
    (hbusy : busy id = true → id ∈ D) (hseen : ∀ id, id ∈ p.seen ↔ id ∈ D ++ p.batch) :
    Lap all full n start (D ++ p'.batch) (s.pop id rest) ∧
      ∀ id, id ∈ p'.seen ↔ id ∈ D ++ p'.batch := by
  obtain ⟨hstart, P, hP, hlast, hD⟩ := h
  rw [hbuffer] at hP
  have hP' : P ++ [id] ++ (rest ++ s.toCome all) = full := by
    rw [← hP, List.append_assoc]
    rfl
  have hlap : ∀ D', D' = (P ++ [id]).take n → Lap all full n start D' (s.pop id rest) :=
    fun D' hD' => ⟨hstart, P ++ [id], hP', List.getLast?_concat.symm, hD'⟩
  cases hoffer with
  | skip hgone =>
    have hmem : id ∈ P.take n :=
      hD ▸ hgone.elim (fun h => List.mem_append_left _ (hbusy h)) (hseen id).mp
    refine ⟨hlap _ ?_, hseen⟩
    rw [hD, take_concat_of_mem hP hnodup hmem]
  | pick hfree hfresh =>
    have hnot : id ∉ P.take n := hD ▸ fun h => hfresh ((hseen id).mpr h)
    refine ⟨hlap _ ?_, fun x => ?_⟩
    · rw [take_concat_of_notMem hP hfull hnot, ← hD, List.append_assoc]
    · rw [List.mem_cons, hseen, ← List.append_assoc]
      simp only [List.mem_append, List.mem_singleton]
      exact or_comm

/-- A source on its lap shows where the tick has advanced to. -/
theorem Lap.advances {all : List Int} (h : Lap all full n start D s)
    (hS : full.take n = ring S start) (hn : n = S.length) : Advances S start D s.resumeAfter := by
  obtain ⟨hstart, P, hP, hlast, hD⟩ := h
  have hring := (ring_perm S start).length_eq
  refine ⟨?_, fun hshort => ?_⟩
  · rw [hD, ← hS, ← hP, List.take_append]
    exact List.prefix_append _ _
  · -- not all of the round has been handed out, so it goes on behind the last number
    have hP' : P.length < n := by
      rw [hD, List.length_take] at hshort
      omega
    have hnot : s.isDone = false := by
      by_contra hdone
      simp only [isDone, Bool.not_eq_false, Bool.and_eq_true, List.isEmpty_iff] at hdone
      rw [hdone.2, toCome, if_pos hdone.1, List.append_nil, List.append_nil] at hP
      rw [← hS, ← hP, List.take_of_length_le (Nat.le_of_lt hP')] at hring
      omega
    rw [resumeAfter, hnot, if_neg (by simp), hlast, hstart, hD,
      List.take_of_length_le (Nat.le_of_lt hP')]

end Source

namespace Outlook

open Source

variable {o : Outlook} {p p' : Progress} {s : Source} {c : Category} {S : List Int} {start : Int}
  {cs : List Category}

/-! ## Sweeps of one category -/

/-- The source has nothing to hand out, and never will. -/
structure Idle (o : Outlook) (s : Source) : Prop where
  candidates : o.candidates s.category = []
  buffer : s.buffer = []

@[simp] theorem start_refill (o : Outlook) (s : Source) : (o.refill s).start = s.start := by
  simp only [refill, accept]
  split
  · split <;> rfl
  · rfl

@[simp] theorem lastTaken_refill (o : Outlook) (s : Source) :
    (o.refill s).lastTaken = s.lastTaken := by
  simp only [refill, accept]
  split
  · split <;> rfl
  · rfl

theorem Idle.refill (h : Idle o s) : Idle o (o.refill s) where
  candidates := by rw [category_refill, h.candidates]
  buffer := by
    refine List.eq_nil_iff_forall_not_mem.mpr fun id hid => ?_
    have hcandidate := mem_candidates_of_mem_buffer_refill h.buffer hid
    rw [h.candidates] at hcandidate
    exact List.not_mem_nil hcandidate

/-- Sources of which only that of `c` is not idle, when `D` has been dispatched and some more
picked: it is on its lap. -/
structure OnLap (o : Outlook) (c : Category) (start : Int) (D : List Int) (ss : List Source)
    (p : Picked) : Prop where
  sole : Sole c (Idle o) (Lap (o.candidates c) ((Source.begin c start).toCome (o.candidates c))
    (o.candidates c).length start (D ++ p.batch)) ss
  seen (id : Int) : id ∈ p.seen ↔ id ∈ D ++ p.batch

namespace OnLap

variable {D seen : List Int} {ss ss' : List Source} {q q' : Picked} {busy : Int → Bool}

theorem pop (h : OnLap o c start D ss q) (hbusy : ∀ id, busy id = true → id ∈ D)
    (hp : Pop busy (ss, q) (ss', q')) : OnLap o c start D ss' q' := by
  obtain ⟨s, id, rest, hs, hlap, hbuffer, hoffer, hnext⟩ := h.sole.pop (fun _ h => h.buffer) hp
  have hring := take_toCome_begin (o.ascending c) (o.positive c) c start
  have hnodup := nodup_ring (o.ascending c) start
  have hfull : ∀ id ∈ (Source.begin c start).toCome (o.candidates c),
      id ∈ ((Source.begin c start).toCome (o.candidates c)).take (o.candidates c).length := by
    intro id hid
    rw [hring]
    exact (ring_perm _ start).mem_iff.mpr (mem_of_mem_toCome hid)
  rw [← hring] at hnodup
  obtain ⟨hlap', hseen⟩ := hlap.pop hnodup hfull hbuffer hoffer (hbusy id) h.seen
  exact ⟨hnext _ hlap', hseen⟩

theorem draw (h : OnLap o c start D ss ⟨[], seen⟩) (hbusy : ∀ id, busy id = true → id ∈ D)
    (slots : Nat) :
    OnLap o c start D (Source.draw busy slots ss seen).1 (Source.draw busy slots ss seen).2 := by
  have hpops := pops_draw busy slots ss seen
  generalize Source.draw busy slots ss seen = r at hpops ⊢
  induction hpops with
  | refl => exact h
  | tail _ hp ih => exact ih.pop hbusy hp

/-- What was picked is dispatched. -/
theorem dispatch (h : OnLap o c start D ss q) : OnLap o c start (D ++ q.batch) ss ⟨[], q.seen⟩ where
  sole := by
    rw [List.append_nil]
    exact h.sole
  seen id := by
    rw [List.append_nil]
    exact h.seen id

theorem refill (h : OnLap o c start D ss q) : OnLap o c start D (ss.map o.refill) q where
  sole := by
    refine h.sole.map (category_refill o) (fun _ => Idle.refill) fun s hs hlap => ?_
    obtain ⟨hstart, P, hP, hlast, hD⟩ := hlap
    refine ⟨by rw [start_refill, hstart], P, ?_, by rw [lastTaken_refill, hlast], hD⟩
    by_cases hbuffer : s.buffer = []
    · have hkeeps := buffer_append_toCome_refill (o := o) hbuffer
      rw [toCome, toCome, category_refill, hs] at hkeeps
      rw [hkeeps, ← hP, hbuffer, List.nil_append]
    · rw [Outlook.refill, if_neg]
      · exact hP
      · simp [isDue, hbuffer]
  seen := h.seen

end OnLap

theorem onLap_outset {start : Category → Int} (hcs : cs.Nodup) (hc : c ∈ cs)
    (honly : ∀ c' ∈ cs, c' ≠ c → o.candidates c' = []) :
    OnLap o c (start c) [] (outset cs start).sources ⟨[], []⟩ where
  sole := by
    have hlap : Lap (o.candidates c) ((Source.begin c (start c)).toCome (o.candidates c))
        (o.candidates c).length (start c) [] (Source.begin c (start c)) :=
      ⟨rfl, [], rfl, rfl, List.take_nil.symm⟩
    change Sole _ _ _ (cs.map fun c => Source.begin c (start c))
    induction cs with
    | nil => exact absurd hc List.not_mem_nil
    | cons c' cs ih =>
      obtain ⟨hc', hcs⟩ := List.nodup_cons.mp hcs
      by_cases heq : c' = c
      · subst heq
        refine .here rfl hlap fun t ht => ?_
        obtain ⟨c'', hmem, rfl⟩ := List.mem_map.mp ht
        exact ⟨honly c'' (List.mem_cons_of_mem _ hmem) fun he => hc' (he ▸ hmem), rfl⟩
      · have hmem := (List.mem_cons.mp hc).resolve_left fun he => heq he.symm
        exact .there ⟨honly c' List.mem_cons_self heq, rfl⟩
          (ih hcs hmem fun x hx => honly x (List.mem_cons_of_mem _ hx))
  seen _ := Iff.rfl

/-- A sweep goes on with the lap, if nothing was in flight before. -/
theorem onLap_sweep (hfree : ∀ id, o.inFlight id = false) : ∀ (count slots : Nat) {p : Progress},
    OnLap o c start p.scheduled p.sources ⟨[], p.seen⟩ →
    OnLap o c start (o.sweep count slots p).2.scheduled (o.sweep count slots p).2.sources
      ⟨[], (o.sweep count slots p).2.seen⟩
  | 0, _, _, h => h
  | count + 1, slots, p, h => by
      rw [sweep]
      split
      · exact h
      split
      · exact h.refill
      · refine onLap_sweep hfree count _ (OnLap.dispatch (h.refill.draw ?_ slots))
        intro id hid
        exact (busy_eq_true.mp hid).resolve_left (by simp [hfree id])

/-- **A sweep advances along the ring** of the one category that has candidates. -/
theorem advances_sweep (hfree : ∀ id, o.inFlight id = false) (start : Category → Int)
    (hcs : cs.Nodup) (hc : c ∈ cs) (honly : ∀ c' ∈ cs, c' ≠ c → o.candidates c' = [])
    (count slots : Nat) : ∃ s ∈ (o.sweep count slots (outset cs start)).2.sources,
      s.category = c ∧ Advances (o.candidates c) (start c)
        (o.sweep count slots (outset cs start)).2.scheduled s.resumeAfter := by
  have hlap := onLap_sweep hfree count slots (p := outset cs start) (onLap_outset hcs hc honly)
  obtain ⟨s, hs, hcategory, hadvances⟩ := hlap.sole.exists_mem
  rw [List.append_nil] at hadvances
  exact ⟨s, hs, hcategory,
    hadvances.advances (take_toCome_begin (o.ascending c) (o.positive c) c _) rfl⟩

end Outlook

end GeoReplication
