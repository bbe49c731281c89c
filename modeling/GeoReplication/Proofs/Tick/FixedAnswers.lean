import GeoReplication.Proofs.Tick.Interleave

/-!
# Proofs/Tick/FixedAnswers — a batch while nothing else goes on

When it is settled which numbers are in flight, a batch needs no monad: `Source.draw` is the batch
as a value.  Asking in a monad comes to the same in every sense that sequencing keeps (`Mirrors`).
-/

namespace GeoReplication

/-- A relation of programs to values that sequencing keeps. -/
structure Mirrors {m : Type → Type} [Monad m] (R : ∀ {α : Type}, m α → α → Prop) : Prop where
  pure {α : Type} (a : α) : R (Pure.pure a) a
  bind {α β : Type} {t : m α} {a : α} {next : α → m β} {b : β} :
    R t a → R (next a) b → R (t >>= next) b

namespace Source

/-- The batch, if the numbers in flight are `busy`. -/
def draw (busy : Int → Bool) (capacity : Nat) (ss : List Source) (seen : List Int) :
    List Source × Picked :=
  interleave (m := Id) busy capacity ss seen

/-! ## Asking comes to the same -/

section Mirrors

variable {m : Type → Type} [Monad m] {R : ∀ {α : Type}, m α → α → Prop} {ask : Int → m Bool}
  {busy : Int → Bool}

theorem mirrors_turnFrom (hR : Mirrors R) (hask : ∀ id, R (ask id) (busy id)) :
    ∀ (ids : List Int) (s : Source) (p : Picked),
      R (turnFrom ask s p ids) (turnFrom (m := Id) busy s p ids)
  | [], s, p => hR.pure _
  | id :: rest, s, p => by
      refine hR.bind (hask id) ?_
      change R _ (if busy id then turnFrom (m := Id) busy (s.pop id rest) p rest
        else if p.seen.contains id then turnFrom (m := Id) busy (s.pop id rest) p rest
        else (s.pop id rest, ⟨p.batch ++ [id], id :: p.seen⟩))
      split
      · exact mirrors_turnFrom hR hask rest _ p
      split
      · exact mirrors_turnFrom hR hask rest _ p
      · exact hR.pure _

theorem mirrors_round (hR : Mirrors R) (hask : ∀ id, R (ask id) (busy id)) (capacity : Nat) :
    ∀ (ss : List Source) (p : Picked),
      R (round ask capacity ss p) (round (m := Id) busy capacity ss p)
  | [], p => hR.pure _
  | s :: ss, p => by
      rw [round, round]
      split
      · exact hR.pure _
      · refine hR.bind (mirrors_turnFrom hR hask s.buffer s p) ?_
        exact hR.bind (mirrors_round hR hask capacity ss _) (hR.pure _)

theorem mirrors_rounds (hR : Mirrors R) (hask : ∀ id, R (ask id) (busy id)) (capacity : Nat) :
    ∀ (count : Nat) (ss : List Source) (p : Picked),
      R (rounds ask capacity count ss p) (rounds (m := Id) busy capacity count ss p)
  | 0, ss, p => hR.pure _
  | count + 1, ss, p => by
      rw [rounds, rounds]
      split
      · refine hR.bind (mirrors_round hR hask capacity ss p) ?_
        exact mirrors_rounds hR hask capacity count _ _
      · exact hR.pure _

/-- **Asking comes to the same** as knowing. -/
theorem mirrors_interleave (hR : Mirrors R) (hask : ∀ id, R (ask id) (busy id)) (capacity : Nat)
    (ss : List Source) (seen : List Int) :
    R (interleave ask capacity ss seen) (draw busy capacity ss seen) :=
  mirrors_rounds hR hask capacity _ ss _

end Mirrors

/-! ## What a batch is -/

section Draw

variable {busy : Int → Bool} {c d : Nat}

theorem mirrors_pure : Mirrors (m := Program) fun t a => t = pure a where
  pure _ := rfl
  bind := by
    rintro _ _ _ a next b rfl hnext
    exact (pure_bind a next).trans hnext

/-- The answer is what is so. -/
abbrev Truth (busy : Int → Bool) (id : Int) (b : Bool) : Prop := b = busy id

theorem every_truth (busy : Int → Bool) (id : Int) :
    (Program.done (busy id)).Every (fun _ => True) (Truth busy id) := rfl

theorem turnOf (busy : Int → Bool) (s : Source) (p : Picked) :
    TurnOf (Truth busy) s p (turn (m := Id) busy s p).1 (turn (m := Id) busy s p).2 := by
  have hpure : s.turn (fun id => Program.done (busy id)) p = pure (turn (m := Id) busy s p) :=
    mirrors_turnFrom mirrors_pure (fun _ => rfl) s.buffer s p
  have hturn := every_turn (every_truth busy) s p
  rwa [hpure] at hturn

theorem roundOf (busy : Int → Bool) (capacity : Nat) (ss : List Source) (p : Picked) :
    RoundOf (Truth busy) capacity ss p (round (m := Id) busy capacity ss p).1
      (round (m := Id) busy capacity ss p).2 := by
  have hpure : round (fun id => Program.done (busy id)) capacity ss p =
      pure (round (m := Id) busy capacity ss p) :=
    mirrors_round mirrors_pure (fun _ => rfl) capacity ss p
  have hround := every_round (every_truth busy) capacity ss p
  rwa [hpure] at hround

theorem batchOf_rounds (busy : Int → Bool) (capacity count : Nat) (ss : List Source) (p : Picked)
    (hcount : buffered ss ≤ count) :
    BatchOf (Truth busy) capacity ss p (rounds (m := Id) busy capacity count ss p).1
      (rounds (m := Id) busy capacity count ss p).2 := by
  have hpure : rounds (fun id => Program.done (busy id)) capacity count ss p =
      pure (rounds (m := Id) busy capacity count ss p) :=
    mirrors_rounds mirrors_pure (fun _ => rfl) capacity count ss p
  have hrounds := every_rounds (every_truth busy) capacity count ss p hcount
  rwa [hpure] at hrounds

theorem batchOf_draw (busy : Int → Bool) (capacity : Nat) (ss : List Source) (seen : List Int) :
    BatchOf (Truth busy) capacity ss ⟨[], seen⟩ (draw busy capacity ss seen).1
      (draw busy capacity ss seen).2 :=
  batchOf_rounds busy capacity _ ss _ (Nat.le_refl _)

/-! ## More room -/

/-- `r` is `r'` cut off where `c` are picked. -/
structure CutOff (c : Nat) (r r' : List Source × Picked) : Prop where
  batch : r.2.batch = r'.2.batch.take c
  same : r.2.batch.length < c → r' = r

theorem CutOff.of_begins {r r' : List Source × Picked} (hlen : r.2.batch.length = c)
    (hbegins : r.2.batch <+: r'.2.batch) : CutOff c r r' :=
  ⟨by rw [← hlen]; exact List.prefix_iff_eq_take.mp hbegins, fun h => by omega⟩

theorem CutOff.refl {r : List Source × Picked} (hlen : r.2.batch.length ≤ c) : CutOff c r r :=
  ⟨(List.take_of_length_le hlen).symm, fun _ => rfl⟩

theorem Picks.batch_begins {A : Int → Bool → Prop} {ss ss' : List Source} {p p' : Picked}
    (h : Picks A ss p ss' p') : p.batch <+: p'.batch := by
  obtain ⟨new, hnew⟩ := h.adds
  exact ⟨new, hnew.batch.symm⟩

theorem round_of_full {busy : Int → Bool} {p : Picked} (hfull : c ≤ p.batch.length) :
    ∀ ss : List Source, round (m := Id) busy c ss p = (ss, p)
  | [] => rfl
  | s :: ss => by
      rw [round, if_pos hfull]
      rfl

theorem round_of_room {busy : Int → Bool} {p : Picked} (hroom : ¬ c ≤ p.batch.length) (s : Source)
    (ss : List Source) : round (m := Id) busy c (s :: ss) p =
      ((turn (m := Id) busy s p).1 :: (round (m := Id) busy c ss (turn (m := Id) busy s p).2).1,
        (round (m := Id) busy c ss (turn (m := Id) busy s p).2).2) := by
  rw [round, if_neg hroom]
  rfl

theorem cutOff_round (busy : Int → Bool) (hcd : c ≤ d) :
    ∀ (ss : List Source) (p : Picked), p.batch.length ≤ c →
    CutOff c (round (m := Id) busy c ss p) (round (m := Id) busy d ss p)
  | [], p, hp => .refl hp
  | s :: ss, p, hp => by
      by_cases hfull : c ≤ p.batch.length
      · rw [round_of_full hfull]
        exact .of_begins (Nat.le_antisymm hp hfull) (roundOf busy d (s :: ss) p).picks.batch_begins
      · have hturn := (turnOf busy s p).atMostOne
        have ih := cutOff_round busy hcd ss (turn (m := Id) busy s p).2 (by omega)
        rw [round_of_room hfull, round_of_room (by omega)]
        exact ⟨ih.batch, fun h => by rw [ih.same h]⟩

/-- With a full batch nothing goes on. -/
theorem rounds_full {p : Picked} (hfull : c ≤ p.batch.length) (ss : List Source) :
    ∀ count : Nat, rounds (m := Id) busy c count ss p = (ss, p)
  | 0 => rfl
  | count + 1 => by
      rw [rounds, if_neg]
      · rfl
      · simp [Nat.not_lt.mpr hfull]

/-- While numbers wait and there is room, there is another round. -/
theorem rounds_of_room {p : Picked} (hroom : p.batch.length < c) {ss : List Source}
    (hpos : buffered ss ≠ 0) (count : Nat) :
    rounds (m := Id) busy c (count + 1) ss p =
      rounds (m := Id) busy c count (round (m := Id) busy c ss p).1
        (round (m := Id) busy c ss p).2 := by
  have hany : (ss.any fun s => !s.buffer.isEmpty) = true := by
    by_contra hnone
    refine hpos ?_
    clear hpos
    induction ss with
    | nil => rfl
    | cons s ss ih =>
      simp only [List.any_cons, Bool.or_eq_true, not_or] at hnone
      rw [buffered_cons, ih hnone.2]
      simpa using hnone.1
  rw [rounds, if_pos (by rw [hany, Bool.and_true]; exact decide_eq_true hroom)]
  rfl

/-- When the buffers are empty nothing goes on. -/
theorem rounds_of_empty {ss : List Source} (hempty : ∀ s ∈ ss, s.buffer = []) (p : Picked) :
    ∀ count : Nat, rounds (m := Id) busy c count ss p = (ss, p)
  | 0 => rfl
  | count + 1 => by
      rw [rounds, if_neg]
      · rfl
      · simp only [Bool.and_eq_true, List.any_eq_true, Bool.not_eq_eq_eq_not, Bool.not_true,
          List.isEmpty_eq_false_iff, not_and, not_exists, not_not]
        exact fun _ s hs => hempty s hs

theorem cutOff_rounds (busy : Int → Bool) (hcd : c ≤ d) :
    ∀ (count : Nat) (ss : List Source) (p : Picked), buffered ss ≤ count → p.batch.length ≤ c →
    CutOff c (rounds (m := Id) busy c count ss p) (rounds (m := Id) busy d count ss p)
  | 0, ss, p, _, hp => .refl hp
  | count + 1, ss, p, hcount, hp => by
      by_cases hfull : c ≤ p.batch.length
      · rw [rounds_full hfull]
        exact .of_begins (Nat.le_antisymm hp hfull)
          (batchOf_rounds busy d (count + 1) ss p hcount).picks.batch_begins
      by_cases hpos : buffered ss = 0
      · have hempty := forall_buffer_eq_nil hpos
        rw [rounds_of_empty hempty, rounds_of_empty hempty]
        exact .refl hp
      rw [rounds_of_room (by omega) hpos, rounds_of_room (by omega) hpos]
      have hless : ∀ e, c ≤ e → buffered (round (m := Id) busy e ss p).1 ≤ count := fun e he => by
        have := (roundOf busy e ss p).handsOut (by omega) hpos
        omega
      have hround := cutOff_round busy hcd ss p hp
      have hfits := (roundOf busy c ss p).fits hp
      by_cases hroom : (round (m := Id) busy c ss p).2.batch.length < c
      · rw [hround.same hroom]
        exact cutOff_rounds busy hcd count _ _ (hless c (Nat.le_refl c)) hfits
      · rw [rounds_full (Nat.not_lt.mp hroom)]
        refine .of_begins (Nat.le_antisymm hfits (Nat.not_lt.mp hroom)) ?_
        have hbegins : (round (m := Id) busy c ss p).2.batch <+:
            (round (m := Id) busy d ss p).2.batch := by
          rw [hround.batch]
          exact List.take_prefix _ _
        exact hbegins.trans (batchOf_rounds busy d count _ _ (hless d hcd)).picks.batch_begins

/-- **More room** lets a batch go on, and changes nothing that was picked with less. -/
theorem cutOff_draw (busy : Int → Bool) (hcd : c ≤ d) (ss : List Source)
    (seen : List Int) : CutOff c (draw busy c ss seen) (draw busy d ss seen) :=
  cutOff_rounds busy hcd _ ss _ (Nat.le_refl _) (Nat.zero_le _)

end Draw

end Source

end GeoReplication
