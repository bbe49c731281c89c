import GeoReplication.Proofs.Site.Frame
import GeoReplication.Proofs.Tick.FixedAnswers

/-!
# Proofs/Tick/Turns — sources take turns

    room for five:    a₁ b₁ c₁ │ a₂ c₂ │        b has run dry, and nothing of it stands in round two

A batch is picked in rounds, and in a round every source has one turn.  The `ledger` of a batch
writes down whose turn each pick was, so that the `share` of a source is what it contributed.  A
source that still holds numbers has picked one in each of its turns, so after some whole rounds and
a part of one more (`Level`) it has fallen behind no other by more than one, and behind none that
comes after it (`interleave_takes_turns`).
-/

namespace GeoReplication.Source

variable {busy : Int → Bool} {capacity : Nat} {s : Source} {ss ss' : List Source} {p : Picked}

/-! ## Whose turn it was -/

/-- What a turn adds to the batch. -/
def turnPicks (busy : Int → Bool) (s : Source) (p : Picked) : List Int :=
  (turn (m := Id) busy s p).2.batch.drop p.batch.length

/-- The picks of a round in order, each with the place of the source whose turn it was. -/
def roundLedger (busy : Int → Bool) (capacity : Nat) : List Source → Picked → List (Nat × Int)
  | [], _ => []
  | s :: ss, p =>
    if capacity ≤ p.batch.length then []
    else (turnPicks busy s p).map (Prod.mk 0) ++
      (roundLedger busy capacity ss (turn (m := Id) busy s p).2).map (Prod.map Nat.succ id)

/-- The picks of at most `count` rounds. -/
def roundsLedger (busy : Int → Bool) (capacity : Nat) :
    (count : Nat) → List Source → Picked → List (Nat × Int)
  | 0, _, _ => []
  | count + 1, ss, p =>
    if p.batch.length < capacity && ss.any fun s => !s.buffer.isEmpty then
      roundLedger busy capacity ss p ++
        roundsLedger busy capacity count (round (m := Id) busy capacity ss p).1
          (round (m := Id) busy capacity ss p).2
    else []

/-- The picks of a batch, each with the place of the source whose turn it was. -/
def ledger (busy : Int → Bool) (capacity : Nat) (ss : List Source) (seen : List Int) :
    List (Nat × Int) := roundsLedger busy capacity (buffered ss) ss ⟨[], seen⟩

/-- What the source at a place contributed, in the order of picking. -/
def share (place : Nat) (l : List (Nat × Int)) : List Int :=
  (l.filter (·.1 = place)).map Prod.snd

@[simp] theorem share_nil (i : Nat) : share i [] = [] := rfl

@[simp] theorem share_append (i : Nat) (l l' : List (Nat × Int)) :
    share i (l ++ l') = share i l ++ share i l' := by simp [share]

@[simp] theorem share_map_mk (i j : Nat) (ids : List Int) :
    share i (ids.map (Prod.mk j)) = if j = i then ids else [] := by
  by_cases h : j = i <;> simp [share, List.filter_map, Function.comp_def, h]

@[simp] theorem share_zero_map_succ (l : List (Nat × Int)) :
    share 0 (l.map (Prod.map Nat.succ id)) = [] := by
  simp [share, List.filter_map, Function.comp_def]

@[simp] theorem share_succ_map_succ (i : Nat) (l : List (Nat × Int)) :
    share (i + 1) (l.map (Prod.map Nat.succ id)) = share i l := by
  simp [share, List.filter_map, Function.comp_def]

/-! ## A turn -/

/-- A turn that begins with `ids` in the buffer adds `new` to the batch: one of them, unless it
hands out all there are. -/
structure TurnAdds (ids : List Int) (p : Picked) (new : List Int) (r : Source × Picked) : Prop where
  batch : r.2.batch = p.batch ++ new
  order : (new ++ r.1.buffer).Sublist ids
  atMostOne : new.length ≤ 1
  one : r.1.buffer ≠ [] → new.length = 1

theorem turnAdds_turnFrom (busy : Int → Bool) : ∀ (ids : List Int) (s : Source) (p : Picked),
    s.buffer = ids → ∃ new, TurnAdds ids p new (turnFrom (m := Id) busy s p ids)
  | [], s, p, hs => by
      refine ⟨[], (List.append_nil _).symm, ?_, Nat.zero_le _, fun hne => absurd hs hne⟩
      change s.buffer.Sublist []
      rw [hs]
  | id :: rest, s, p, hs => by
      have hturn : turnFrom (m := Id) busy s p (id :: rest) =
          if busy id then turnFrom (m := Id) busy (s.pop id rest) p rest
          else if p.seen.contains id then turnFrom (m := Id) busy (s.pop id rest) p rest
          else (s.pop id rest, ⟨p.batch ++ [id], id :: p.seen⟩) := rfl
      -- the number is passed over, and the turn goes on
      have hskip : ∃ new, TurnAdds (id :: rest) p new
          (turnFrom (m := Id) busy (s.pop id rest) p rest) := by
        obtain ⟨new, hnew⟩ := turnAdds_turnFrom busy rest (s.pop id rest) p rfl
        exact ⟨new, hnew.batch, hnew.order.cons id, hnew.atMostOne, hnew.one⟩
      rw [hturn]
      split
      · exact hskip
      split
      · exact hskip
      · exact ⟨[id], rfl, .refl _, Nat.le_refl _, fun _ => rfl⟩

theorem turnAdds (busy : Int → Bool) (s : Source) (p : Picked) :
    TurnAdds s.buffer p (turnPicks busy s p) (turn (m := Id) busy s p) := by
  obtain ⟨new, hnew⟩ := turnAdds_turnFrom busy s.buffer s p rfl
  have hpicks : turnPicks busy s p = new := by
    have hbatch : (turn (m := Id) busy s p).2.batch = p.batch ++ new := hnew.batch
    rw [turnPicks, hbatch, List.drop_left]
  rw [hpicks]
  exact hnew

/-! ## A round -/

/-- Sources before and after some turns with this ledger: each contributed what it handed out, in
the order of its buffer. -/
def KeepsOrder (l : List (Nat × Int)) (ss ss' : List Source) : Prop :=
  ∀ (i : Nat) (s s' : Source), ss[i]? = some s → ss'[i]? = some s' →
    (share i l ++ s'.buffer).Sublist s.buffer

/-- After `k` whole rounds and one in which the first `t` sources had their turns. -/
structure Level (k t : Nat) (l : List (Nat × Int)) (ss' : List Source) : Prop where
  le : ∀ i, (share i l).length ≤ k + if i < t then 1 else 0
  eq : ∀ (i : Nat) (s' : Source), ss'[i]? = some s' → s'.buffer ≠ [] →
    (share i l).length = k + if i < t then 1 else 0

theorem batch_round (busy : Int → Bool) (capacity : Nat) : ∀ (ss : List Source) (p : Picked),
    (round (m := Id) busy capacity ss p).2.batch =
      p.batch ++ (roundLedger busy capacity ss p).map Prod.snd
  | [], p => (List.append_nil _).symm
  | s :: ss, p => by
      by_cases hfull : capacity ≤ p.batch.length
      · rw [round_of_full hfull, roundLedger, if_pos hfull]
        exact (List.append_nil _).symm
      · rw [round_of_room hfull, roundLedger, if_neg hfull, batch_round busy capacity ss,
          (turnAdds busy s p).batch]
        simp [Function.comp_def]

theorem keepsOrder_round (busy : Int → Bool) (capacity : Nat) : ∀ (ss : List Source) (p : Picked),
    KeepsOrder (roundLedger busy capacity ss p) ss (round (m := Id) busy capacity ss p).1
  | [], p => by
      intro i s s' hs
      cases hs
  | s :: ss, p => by
      by_cases hfull : capacity ≤ p.batch.length
      · rw [round_of_full hfull, roundLedger, if_pos hfull]
        intro i u u' hu hu'
        obtain rfl := Option.some.inj (hu.symm.trans hu')
        exact .refl _
      · rw [round_of_room hfull, roundLedger, if_neg hfull]
        rintro (_ | i) u u' hu hu'
        · obtain rfl : s = u := Option.some.inj hu
          obtain rfl : (turn (m := Id) busy s p).1 = u' := Option.some.inj hu'
          simpa using (turnAdds busy s p).order
        · simpa using keepsOrder_round busy capacity ss (turn (m := Id) busy s p).2 i u u' hu hu'

/-- In a round that is not cut off every source has its turn. -/
theorem level_round (busy : Int → Bool) (capacity : Nat) : ∀ (ss : List Source) (p : Picked),
    ∃ t, t ≤ ss.length ∧
      (t < ss.length → capacity ≤ (round (m := Id) busy capacity ss p).2.batch.length) ∧
      Level 0 t (roundLedger busy capacity ss p) (round (m := Id) busy capacity ss p).1
  | [], p => ⟨0, Nat.le_refl _, fun h => absurd h (Nat.lt_irrefl _), fun _ => Nat.zero_le _,
      fun _ _ h => by cases h⟩
  | s :: ss, p => by
      by_cases hfull : capacity ≤ p.batch.length
      · rw [round_of_full hfull, roundLedger, if_pos hfull]
        exact ⟨0, Nat.zero_le _, fun _ => hfull, fun _ => Nat.zero_le _, fun _ _ _ _ => rfl⟩
      · have hturn := turnAdds busy s p
        obtain ⟨t, hle, hcut, hlevel⟩ :=
          level_round busy capacity ss (turn (m := Id) busy s p).2
        rw [round_of_room hfull, roundLedger, if_neg hfull]
        refine ⟨t + 1, Nat.succ_le_succ hle, fun h => hcut (Nat.lt_of_succ_lt_succ h), ?_, ?_⟩
        · rintro (_ | i)
          · simpa using hturn.atMostOne
          · simpa using hlevel.le i
        · rintro (_ | i) s' hs' hne
          · obtain rfl : (turn (m := Id) busy s p).1 = s' := Option.some.inj hs'
            simpa using hturn.one hne
          · simpa using hlevel.eq i s' hs' hne

/-! ## Rounds -/

theorem length_round (busy : Int → Bool) (capacity : Nat) (ss : List Source) (p : Picked) :
    (round (m := Id) busy capacity ss p).1.length = ss.length :=
  (roundOf busy capacity ss p).picks.settles.length_eq.symm

theorem KeepsOrder.trans {l l' : List (Nat × Int)} {ss'' : List Source}
    (h : KeepsOrder l ss ss') (h' : KeepsOrder l' ss' ss'') (hlength : ss'.length = ss.length) :
    KeepsOrder (l ++ l') ss ss'' := by
  intro i s s'' hs hs''
  have hi : i < ss'.length := hlength ▸ (List.getElem?_eq_some_iff.mp hs).1
  have hmid := List.getElem?_eq_getElem hi
  rw [share_append, List.append_assoc]
  exact ((h' i _ s'' hmid hs'').append_left _).trans (h i s _ hs hmid)

/-- A whole round, and then more turns. -/
theorem Level.trans {k t : Nat} {l l' : List (Nat × Int)} {ss'' : List Source}
    (h : Level 0 ss'.length l ss') (h' : Level k t l' ss'') (horder : KeepsOrder l' ss' ss'')
    (hlength : ss''.length = ss'.length) : Level (k + 1) t (l ++ l') ss'' where
  le i := by
    have hfirst := h.le i
    have hrest := h'.le i
    rw [share_append, List.length_append]
    split at hfirst <;> omega
  eq i s'' hs'' hne := by
    have hi : i < ss'.length := hlength ▸ (List.getElem?_eq_some_iff.mp hs'').1
    have hmid := List.getElem?_eq_getElem hi
    -- what is left now was there after the first round
    have hheld : ss'[i].buffer ≠ [] := fun hnil => by
      have hsub := horder i _ s'' hmid hs''
      rw [hnil, List.sublist_nil, List.append_eq_nil_iff] at hsub
      exact hne hsub.2
    rw [share_append, List.length_append, h.eq i _ hmid hheld, h'.eq i s'' hs'' hne, if_pos hi]
    omega

/-- What rounds come to: the ledger has what they add to the batch, every source contributed in the
order of its buffer, and all had as many turns but for one. -/
structure TakesTurns (l : List (Nat × Int)) (ss : List Source) (p : Picked)
    (r : List Source × Picked) : Prop where
  batch : r.2.batch = p.batch ++ l.map Prod.snd
  order : KeepsOrder l ss r.1
  level : ∃ k t, Level k t l r.1

theorem TakesTurns.nothing (ss : List Source) (p : Picked) : TakesTurns [] ss p (ss, p) where
  batch := (List.append_nil _).symm
  order i s s' hs hs' := by
    obtain rfl := Option.some.inj (hs.symm.trans hs')
    exact .refl _
  level := ⟨0, 0, fun _ => Nat.zero_le _, fun _ _ _ _ => rfl⟩

/-- With a full batch nothing is written down any more. -/
theorem roundsLedger_of_full (hfull : capacity ≤ p.batch.length) (ss : List Source) :
    ∀ count : Nat, roundsLedger busy capacity count ss p = []
  | 0 => rfl
  | count + 1 => by rw [roundsLedger, if_neg (by simp [Nat.not_lt.mpr hfull])]

theorem length_rounds (busy : Int → Bool) (capacity : Nat) :
    ∀ (count : Nat) (ss : List Source) (p : Picked),
      (rounds (m := Id) busy capacity count ss p).1.length = ss.length
  | 0, _, _ => rfl
  | count + 1, ss, p => by
      rw [rounds]
      split
      · exact (length_rounds busy capacity count _ _).trans (length_round busy capacity ss p)
      · rfl

theorem takesTurns_rounds (busy : Int → Bool) (capacity : Nat) :
    ∀ (count : Nat) (ss : List Source) (p : Picked), TakesTurns
      (roundsLedger busy capacity count ss p) ss p (rounds (m := Id) busy capacity count ss p)
  | 0, ss, p => .nothing ss p
  | count + 1, ss, p => by
      rw [roundsLedger, rounds]
      split
      · have hbatch := batch_round busy capacity ss p
        have horder := keepsOrder_round busy capacity ss p
        have hlength := length_round busy capacity ss p
        obtain ⟨t, hle, hcut, hlevel⟩ := level_round busy capacity ss p
        have ih := takesTurns_rounds busy capacity count (round (m := Id) busy capacity ss p).1
          (round (m := Id) busy capacity ss p).2
        refine ⟨?_, horder.trans ih.order hlength, ?_⟩
        · rw [List.map_append, ← List.append_assoc, ← hbatch]
          exact ih.batch
        · obtain ⟨k, t', hrest⟩ := ih.level
          rcases Nat.lt_or_eq_of_le hle with hshort | rfl
          · -- the round was cut off, and it was the last
            have hfull := hcut hshort
            refine ⟨0, t, ?_⟩
            rw [roundsLedger_of_full hfull, List.append_nil]
            change Level 0 t _ (rounds (m := Id) busy capacity count _ _).1
            rw [rounds_full hfull]
            exact hlevel
          · refine ⟨k + 1, t', Level.trans ?_ hrest ih.order ?_⟩
            · rw [hlength]
              exact hlevel
            · exact length_rounds busy capacity count _ _
      · exact .nothing ss p

/-! ## A batch -/

/-- A batch of `capacity` numbers at most from the buffers of `ss`, where `seen` were taken before
and `busy` are in flight. -/
structure SharesOut (busy : Int → Bool) (capacity : Nat) (ss : List Source) (seen : List Int)
    (l : List (Nat × Int)) (r : List Source × Picked) : Prop where
  /-- every pick is written down -/
  batch : l.map Prod.snd = r.2.batch
  fits : r.2.batch.length ≤ capacity
  nodup : r.2.batch.Nodup
  fresh : ∀ id ∈ r.2.batch, id ∉ seen ∧ busy id = false
  exhausts : r.2.batch.length < capacity → ∀ s' ∈ r.1, s'.buffer = []
  sources : r.1.length = ss.length
  /-- a source hands out a beginning of its buffer, and contributes a part of that in order -/
  order : ∀ (i : Nat) (s s' : Source), ss[i]? = some s → r.1[i]? = some s' → ∃ out : List Int,
    s.buffer = out ++ s'.buffer ∧ (share i l).Sublist out ∧
      ∀ id ∈ out, id ∈ r.2.batch ∨ id ∈ seen ∨ busy id = true
  /-- who still has some has fallen behind nobody by more than one, and behind none that follows -/
  even : ∀ (i : Nat) (s' : Source), r.1[i]? = some s' → s'.buffer ≠ [] → ∀ j,
    (share j l).length ≤ (share i l).length + 1 ∧
      (i < j → (share j l).length ≤ (share i l).length)

theorem Level.even {k t i j : Nat} {l : List (Nat × Int)} {s' : Source} (h : Level k t l ss')
    (hs' : ss'[i]? = some s') (hne : s'.buffer ≠ []) :
    (share j l).length ≤ (share i l).length + 1 ∧
      (i < j → (share j l).length ≤ (share i l).length) := by
  have hi := h.eq i s' hs' hne
  have hj := h.le j
  split at hi <;> split at hj <;> omega

theorem sharesOut_draw (busy : Int → Bool) (capacity : Nat) (ss : List Source) (seen : List Int) :
    SharesOut busy capacity ss seen (ledger busy capacity ss seen)
      (draw busy capacity ss seen) := by
  have hdraw := batchOf_draw busy capacity ss seen
  obtain ⟨hbatch, horder, k, t, hlevel⟩ :=
    takesTurns_rounds busy capacity (buffered ss) ss ⟨[], seen⟩
  obtain ⟨new, hnew⟩ := hdraw.picks.adds
  have hpicked : (draw busy capacity ss seen).2.batch = new := hnew.batch
  refine ⟨hbatch.symm, hdraw.fits (Nat.zero_le _), hpicked ▸ hnew.nodup, fun id hid => ?_,
    hdraw.exhausts, hdraw.picks.settles.length_eq.symm, ?_, fun i s' hs' hne j =>
      hlevel.even hs' hne⟩
  · rw [hpicked] at hid
    exact ⟨hnew.fresh id hid, (hnew.free id hid).symm⟩
  · intro i s s' hs hs'
    have hsettles : Settles (Truth busy) (draw busy capacity ss seen).2.seen s s' := by
      obtain ⟨hi, rfl⟩ := List.getElem?_eq_some_iff.mp hs
      obtain ⟨hi', rfl⟩ := List.getElem?_eq_some_iff.mp hs'
      exact List.forall₂_iff_get.mp hdraw.picks.settles |>.2 i hi hi'
    obtain ⟨count, hcount, hgone⟩ := hsettles
    have hbuffer : s.buffer = s.buffer.take count ++ s'.buffer := by
      rw [hcount, buffer_handOut, List.take_append_drop]
    have hshare := horder i s s' hs hs'
    rw [hbuffer, List.append_sublist_append_right] at hshare
    refine ⟨_, hbuffer, hshare, fun id hid => ?_⟩
    rcases hgone id hid with hseen | hbusy
    · rw [hpicked]
      exact (hnew.mem_seen.mp hseen).imp_right .inl
    · exact .inr (.inr hbusy.symm)

/-! ## Asking the queue -/

/-- Asking whether a project is in flight leaves the queues as they are. -/
theorem get?_isScheduled (s : Site) (name : String) (id : Int) :
    (s.onQueue name (.isScheduled id)).2.queues.get? name = s.queues.get? name := by
  simp only [Site.onQueue, Queues.get?_set, if_pos]
  cases s.queues.get? name <;> rfl

/-- **Sources take turns**: whatever they hold, whatever was taken before and whatever the queue
holds. -/
theorem interleave_takes_turns (name : String) (capacity : Nat) (ss : List Source)
    (seen : List Int) (s : Site) :
    let busy := ((s.queues.get? name).getD .empty).isScheduled
    ∃ r s', (interleave (fun id => Program.queue name (.isScheduled id)) capacity ss seen).run s =
        (.ok r, s') ∧ s'.queues.get? name = s.queues.get? name ∧
      SharesOut busy capacity ss seen (ledger busy capacity ss seen) r := by
  intro busy
  have hmirrors : Mirrors (m := Program) fun t a => ∀ s₁ : Site,
      s₁.queues.get? name = s.queues.get? name →
        ∃ s₂, t.run s₁ = (.ok a, s₂) ∧ s₂.queues.get? name = s.queues.get? name :=
    { pure := fun a s₁ h => ⟨s₁, rfl, h⟩
      bind := fun ht hnext s₁ h => by
        obtain ⟨s₂, hrun, h₂⟩ := ht s₁ h
        obtain ⟨s₃, hrun', h₃⟩ := hnext s₂ h₂
        exact ⟨s₃, by rw [Program.run_bind_ok hrun, hrun'], h₃⟩ }
  have hask : ∀ id (s₁ : Site), s₁.queues.get? name = s.queues.get? name →
      ∃ s₂, (Program.queue name (.isScheduled id)).run s₁ = (.ok (busy id), s₂) ∧
        s₂.queues.get? name = s.queues.get? name := fun id s₁ h => by
    refine ⟨(s₁.onQueue name (.isScheduled id)).2, ?_, (get?_isScheduled s₁ name id).trans h⟩
    have hreply : (s₁.onQueue name (.isScheduled id)).1 = busy id := by
      change ((s₁.queues.get? name).getD .empty).isScheduled id = busy id
      rw [h]
    rw [Program.run_queue, hreply]
  obtain ⟨s', hrun, hs'⟩ := mirrors_interleave hmirrors hask capacity ss seen s rfl
  exact ⟨_, s', hrun, hs', sharesOut_draw busy capacity ss seen⟩

example :
    let full (ids : List Int) : Source := { Source.begin .failed 0 with buffer := ids }
    ledger (fun id => id == 3) 5 [full [1, 2], full [3, 4], full [1, 5, 6]] [] =
      [(0, 1), (1, 4), (2, 5), (0, 2), (2, 6)] := by decide

end GeoReplication.Source
