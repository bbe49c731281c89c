import GeoReplication.Proofs.Program.Run
import GeoReplication.Tick.Interleave
import Mathlib.Data.List.Forall2

/-!
# Proofs/Tick/Interleave — what a batch holds, and what is left in the buffers

`Source.Picks` relates sources and picks before and after: every source has handed out a beginning
of its buffer, nothing is picked twice, and whatever was handed out is picked, was picked before, or
was said to be in flight.  `every_interleave` says that a batch is of this kind, within the
capacity, and only short of it when every buffer is empty.

The question whether a number is in flight may be answered differently each time: `A id b` says that
`b` is a possible answer for `id`.
-/

namespace GeoReplication

/-- Of two lists that are related place by place, what stands in the second has its partner. -/
theorem exists_left_of_forall₂ {α β : Type} {R : α → β → Prop} {l : List α} {l' : List β}
    (h : List.Forall₂ R l l') {b : β} (hb : b ∈ l') : ∃ a ∈ l, R a b := by
  induction h with
  | nil => exact absurd hb List.not_mem_nil
  | cons hab _ ih =>
    rcases List.mem_cons.mp hb with rfl | hb
    · exact ⟨_, List.mem_cons_self, hab⟩
    · obtain ⟨a, ha, hab⟩ := ih hb
      exact ⟨a, List.mem_cons_of_mem _ ha, hab⟩

/-- What stands in the first has its partner too. -/
theorem exists_right_of_forall₂ {α β : Type} {R : α → β → Prop} {l : List α} {l' : List β}
    (h : List.Forall₂ R l l') {a : α} (ha : a ∈ l) : ∃ b ∈ l', R a b :=
  exists_left_of_forall₂ (R := fun b a => R a b) (List.Forall₂.flip h) ha

namespace Source

variable {A : Int → Bool → Prop} {E : Effect → Prop} {ask : Int → Program Bool}

/-! ## Handing out -/

/-- The source after handing out `count` numbers. -/
def handOut (s : Source) (count : Nat) : Source :=
  { s with
    buffer := s.buffer.drop count
    lastTaken := (s.buffer.take count).getLast?.or s.lastTaken }

@[simp] theorem buffer_handOut (s : Source) (k : Nat) :
    (s.handOut k).buffer = s.buffer.drop k := rfl

@[simp] theorem category_handOut (s : Source) (k : Nat) : (s.handOut k).category = s.category := rfl

theorem handOut_handOut (s : Source) (j k : Nat) :
    (s.handOut j).handOut k = s.handOut (j + k) := by
  have hlast : ((s.buffer.drop j).take k).getLast?.or ((s.buffer.take j).getLast?.or s.lastTaken)
      = (s.buffer.take (j + k)).getLast?.or s.lastTaken := by
    rw [List.take_add, List.getLast?_append, Option.or_assoc]
  simp only [handOut, List.drop_drop, hlast]

end Source

namespace Picked

/-- `p'` holds `new` besides `p`: numbers of `pool`, said not to be in flight, none picked twice. -/
structure Adds (A : Int → Bool → Prop) (pool : Int → Prop) (p : Picked) (new : List Int)
    (p' : Picked) : Prop where
  batch : p'.batch = p.batch ++ new
  seen : p'.seen = new.reverse ++ p.seen
  nodup : new.Nodup
  fresh : ∀ id ∈ new, id ∉ p.seen
  free : ∀ id ∈ new, A id false
  pool : ∀ id ∈ new, pool id

namespace Adds

variable {A : Int → Bool → Prop} {pool pool' : Int → Prop} {p p' p'' : Picked} {new new' : List Int}

theorem nothing (p : Picked) : Adds A pool p [] p :=
  ⟨by simp, by simp, by simp, by simp, by simp, by simp⟩

theorem one {id : Int} (hs : id ∉ p.seen) (ha : A id false) (hp : pool id) :
    Adds A pool p [id] ⟨p.batch ++ [id], id :: p.seen⟩ :=
  ⟨rfl, by simp, by simp, by simpa, by simpa, by simpa⟩

theorem mem_seen (h : Adds A pool p new p') {id : Int} :
    id ∈ p'.seen ↔ id ∈ new ∨ id ∈ p.seen := by
  rw [h.seen, List.mem_append, List.mem_reverse]

theorem imp (h : Adds A pool p new p') (hp : ∀ id, pool id → pool' id) : Adds A pool' p new p' :=
  { h with pool := fun id hid => hp id (h.pool id hid) }

theorem trans (h : Adds A pool p new p') (h' : Adds A pool p' new' p'') :
    Adds A pool p (new ++ new') p'' where
  batch := by rw [h'.batch, h.batch, List.append_assoc]
  seen := by rw [h'.seen, h.seen, List.reverse_append, List.append_assoc]
  nodup := by
    refine List.nodup_append.mpr ⟨h.nodup, h'.nodup, fun id hid id' hid' he => ?_⟩
    subst he
    exact h'.fresh id hid' (h.mem_seen.mpr (.inl hid))
  fresh := fun id hid => by
    rcases List.mem_append.mp hid with hid | hid
    · exact h.fresh id hid
    · exact fun hs => h'.fresh id hid (h.mem_seen.mpr (.inr hs))
  free := fun id hid => (List.mem_append.mp hid).elim (h.free id) (h'.free id)
  pool := fun id hid => (List.mem_append.mp hid).elim (h.pool id) (h'.pool id)

end Adds

end Picked

namespace Source

variable {A : Int → Bool → Prop} {E : Effect → Prop} {ask : Int → Program Bool}

/-- The numbers that wait in the buffers. -/
def Pool (ss : List Source) (id : Int) : Prop := ∃ s ∈ ss, id ∈ s.buffer

/-- `s'` is `s` after handing out numbers that have all been `seen` or were said to be in flight. -/
def Settles (A : Int → Bool → Prop) (seen : List Int) (s s' : Source) : Prop :=
  ∃ k, s' = s.handOut k ∧ ∀ id ∈ s.buffer.take k, id ∈ seen ∨ A id true

theorem Settles.refl (seen : List Int) (s : Source) : Settles A seen s s :=
  ⟨0, rfl, by simp⟩

theorem Settles.category {seen : List Int} {s s' : Source} (h : Settles A seen s s') :
    s'.category = s.category := by
  obtain ⟨k, rfl, -⟩ := h
  rfl

theorem Settles.trans {seen seen' : List Int} {s s' s'' : Source} (h : Settles A seen s s')
    (h' : Settles A seen' s' s'') (hs : ∀ id ∈ seen, id ∈ seen') : Settles A seen' s s'' := by
  obtain ⟨j, rfl, hj⟩ := h
  obtain ⟨k, rfl, hk⟩ := h'
  refine ⟨j + k, handOut_handOut s j k, fun id hid => ?_⟩
  rw [List.take_add, List.mem_append] at hid
  exact hid.elim (fun h => (hj id h).imp_left (hs id)) (hk id)

/-- Sources and picks before and after some turns. -/
structure Picks (A : Int → Bool → Prop) (ss : List Source) (p : Picked) (ss' : List Source)
    (p' : Picked) : Prop where
  settles : List.Forall₂ (Settles A p'.seen) ss ss'
  adds : ∃ new, Picked.Adds A (Pool ss) p new p'

namespace Picks

variable {ss ss' ss'' : List Source} {p p' p'' : Picked} {s s' : Source}

theorem refl (ss : List Source) (p : Picked) : Picks A ss p ss p :=
  ⟨List.forall₂_same.mpr fun s _ => .refl _ s, [], .nothing p⟩

theorem seen_subset (h : Picks A ss p ss' p') : ∀ id ∈ p.seen, id ∈ p'.seen := by
  obtain ⟨new, hn⟩ := h.adds
  exact fun id hid => hn.mem_seen.mpr (.inr hid)

/-- Nothing comes into a buffer. -/
theorem pool (h : Picks A ss p ss' p') {id : Int} (hid : Pool ss' id) : Pool ss id := by
  obtain ⟨h, -⟩ := h
  induction h with
  | nil => exact hid
  | cons hs _ ih =>
    obtain ⟨k, rfl, -⟩ := hs
    obtain ⟨t, ht, hid⟩ := hid
    rcases List.mem_cons.mp ht with rfl | ht
    · exact ⟨_, List.mem_cons_self, List.mem_of_mem_drop hid⟩
    · obtain ⟨u, hu, hid⟩ := ih ⟨t, ht, hid⟩
      exact ⟨u, List.mem_cons_of_mem _ hu, hid⟩

theorem trans (h : Picks A ss p ss' p') (h' : Picks A ss' p' ss'' p'') :
    Picks A ss p ss'' p'' where
  settles := by
    have hsub := h'.seen_subset
    have h1 := h.settles
    have h2 := h'.settles
    clear h h'
    induction h1 generalizing ss'' with
    | nil => cases h2; exact .nil
    | cons hs _ ih =>
      cases h2 with
      | cons hs' hrest => exact .cons (hs.trans hs' hsub) (ih hrest)
  adds := by
    obtain ⟨new, hn⟩ := h.adds
    obtain ⟨new', hn'⟩ := h'.adds
    exact ⟨new ++ new', hn.trans (hn'.imp fun _ => h.pool)⟩

theorem categories (h : Picks A ss p ss' p') : ss'.map (·.category) = ss.map (·.category) := by
  obtain ⟨h, -⟩ := h
  induction h with
  | nil => rfl
  | cons hs _ ih => rw [List.map_cons, List.map_cons, ih, hs.category]

/-- Every source was one before. -/
theorem origin (h : Picks A ss p ss' p') {s' : Source} (hs' : s' ∈ ss') :
    ∃ s ∈ ss, Settles A p'.seen s s' := exists_left_of_forall₂ h.settles hs'

/-- A turn of the first source, and then turns of the others. -/
theorem cons (h : Picks A [s] p [s'] p') (h' : Picks A ss p' ss' p'') :
    Picks A (s :: ss) p (s' :: ss') p'' where
  settles := by
    obtain ⟨k, hk, hid⟩ : Settles A p'.seen s s' := (List.forall₂_cons.mp h.settles).1
    exact .cons ⟨k, hk, fun id h => (hid id h).imp_left (h'.seen_subset id)⟩ h'.settles
  adds := by
    obtain ⟨new, hn⟩ := h.adds
    obtain ⟨new', hn'⟩ := h'.adds
    refine ⟨new ++ new', (hn.imp ?_).trans (hn'.imp ?_)⟩
    · rintro id ⟨t, ht, hid⟩
      exact ⟨t, List.mem_cons.mpr (.inl (List.mem_singleton.mp ht)), hid⟩
    · rintro id ⟨t, ht, hid⟩
      exact ⟨t, List.mem_cons_of_mem _ ht, hid⟩

end Picks

/-! ## Turns, rounds and batches -/

/-- Of the numbers in the buffer one has been seen, if any was free. -/
def Served (A : Int → Bool → Prop) (s : Source) (p : Picked) : Prop :=
  ∀ id ∈ s.buffer, ¬ A id true → ∃ id' ∈ s.buffer, id' ∈ p.seen

theorem Served.imp {s : Source} {p p' : Picked} (h : Served A s p)
    (hs : ∀ id ∈ p.seen, id ∈ p'.seen) : Served A s p' := fun id hid hfree => by
  obtain ⟨id', hid', hseen⟩ := h id hid hfree
  exact ⟨id', hid', hs id' hseen⟩

/-- What a turn does: it hands out numbers up to one that it picks, or all there are. -/
structure TurnOf (A : Int → Bool → Prop) (s : Source) (p : Picked) (s' : Source) (p' : Picked) :
    Prop where
  picks : Picks A [s] p [s'] p'
  atMostOne : p'.batch.length ≤ p.batch.length + 1
  handsOut : s.buffer ≠ [] → s'.buffer.length < s.buffer.length
  idle : s.buffer = [] → s' = s ∧ p' = p
  served : Served A s p'

theorem every_turnFrom (hask : ∀ id, (ask id).Every E (A id)) :
    ∀ (ids : List Int) (s : Source) (p : Picked), s.buffer = ids →
      (turnFrom ask s p ids).Every E fun r => TurnOf A s p r.1 r.2
  | [], s, p, hs =>
      ⟨.refl _ p, Nat.le_succ _, fun h => absurd hs h, fun _ => ⟨rfl, rfl⟩, by simp [Served, hs]⟩
  | id :: rest, s, p, hs => by
      have hpop : s.pop id rest = s.handOut 1 := by simp [pop, handOut, hs]
      have hlt : rest.length < s.buffer.length := by simp [hs]
      -- the number is passed over, and the turn goes on
      have hskip : (id ∈ p.seen ∨ A id true) →
          (turnFrom ask (s.pop id rest) p rest).Every E fun r => TurnOf A s p r.1 r.2 := by
        intro hid
        refine (every_turnFrom hask rest (s.pop id rest) p rfl).imp fun r hr => ?_
        have hfirst : Picks A [s] p [s.pop id rest] p :=
          ⟨.cons ⟨1, hpop, by simpa [hs] using hid⟩ .nil, [], .nothing p⟩
        refine ⟨hfirst.trans hr.picks, hr.atMostOne, fun _ => ?_, fun h => ?_, ?_⟩
        · by_cases hrest : rest = []
          · have hidle := (hr.idle hrest).1
            simpa [hidle, pop] using hlt
          · exact Nat.lt_trans (hr.handsOut hrest) hlt
        · rw [hs] at h; cases h
        · intro id' hid' hfree
          rw [hs] at hid' ⊢
          rcases List.mem_cons.mp hid' with rfl | hid'
          · exact ⟨id', List.mem_cons_self, hr.picks.seen_subset _ (hid.resolve_right hfree)⟩
          · obtain ⟨x, hx, hseen⟩ := hr.served id' hid' hfree
            exact ⟨x, List.mem_cons_of_mem _ hx, hseen⟩
      refine (hask id).bind fun b hb => ?_
      cases b with
      | true => exact hskip (.inr hb)
      | false =>
        by_cases hseen : p.seen.contains id = true
        · simp only [Bool.false_eq_true, if_false, if_pos hseen]
          exact hskip (.inl (List.contains_iff_mem.mp hseen))
        · have hfresh : id ∉ p.seen := fun h => hseen (List.contains_iff_mem.mpr h)
          have hadds : Picked.Adds A (Pool [s]) p [id] ⟨p.batch ++ [id], id :: p.seen⟩ :=
            .one hfresh hb ⟨s, List.mem_singleton_self s, by simp [hs]⟩
          simp only [Bool.false_eq_true, if_false, if_neg hseen]
          refine ⟨⟨.cons ⟨1, hpop, by simp [hs]⟩ .nil, [id], hadds⟩, by simp, fun _ => hlt,
            fun h => ?_, ?_⟩
          · rw [hs] at h; cases h
          · exact fun _ _ _ => ⟨id, by simp [hs], List.mem_cons_self⟩

theorem every_turn (hask : ∀ id, (ask id).Every E (A id)) (s : Source) (p : Picked) :
    (s.turn ask p).Every E fun r => TurnOf A s p r.1 r.2 :=
  every_turnFrom hask s.buffer s p rfl

/-- What a round does: unless the batch is full, it hands out a number if there is one. -/
structure RoundOf (A : Int → Bool → Prop) (capacity : Nat) (ss : List Source) (p : Picked)
    (ss' : List Source) (p' : Picked) : Prop where
  picks : Picks A ss p ss' p'
  fits : p.batch.length ≤ capacity → p'.batch.length ≤ capacity
  buffered_le : buffered ss' ≤ buffered ss
  handsOut : p.batch.length < capacity → buffered ss ≠ 0 → buffered ss' < buffered ss
  served : p.batch.length + ss.length ≤ capacity → ∀ s ∈ ss, Served A s p'

@[simp] theorem buffered_cons (s : Source) (ss : List Source) :
    buffered (s :: ss) = s.buffer.length + buffered ss := by simp [buffered]

theorem every_round (hask : ∀ id, (ask id).Every E (A id)) (capacity : Nat) :
    ∀ (ss : List Source) (p : Picked),
      (round ask capacity ss p).Every E fun r => RoundOf A capacity ss p r.1 r.2
  | [], p => ⟨.refl _ p, id, Nat.le_refl _, fun _ h => absurd rfl h, by simp⟩
  | s :: ss, p => by
      rw [round]
      split
      · next hfull =>
        refine ⟨.refl _ p, id, Nat.le_refl _, fun h => by omega, fun h => ?_⟩
        rw [List.length_cons] at h
        omega
      · next hroom =>
        refine (every_turn hask s p).bind fun r hr => ?_
        refine (every_round hask capacity ss r.2).bind fun r' hr' => ?_
        have hturn : r.1.buffer.length ≤ s.buffer.length := by
          by_cases hs : s.buffer = []
          · exact Nat.le_of_eq (by rw [(hr.idle hs).1])
          · exact Nat.le_of_lt (hr.handsOut hs)
        have hone := hr.atMostOne
        have hrest := hr'.buffered_le
        refine ⟨hr.picks.cons hr'.picks, fun _ => hr'.fits (by omega), ?_, fun _ hpos => ?_,
          fun hturns => ?_⟩
        · simp only [buffered_cons]
          omega
        · simp only [buffered_cons] at hpos ⊢
          by_cases hs : s.buffer = []
          · -- an empty source leaves the room to the others
            have hidle := hr.idle hs
            have hlt := hr'.handsOut (by rw [hidle.2]; omega) (by simpa [hs] using hpos)
            omega
          · have := hr.handsOut hs
            omega
        · rw [List.length_cons] at hturns
          exact List.forall_mem_cons.mpr
            ⟨hr.served.imp hr'.picks.seen_subset, hr'.served (by omega)⟩

/-- What a batch is: as much as fits, and short of it only when every buffer is empty. -/
structure BatchOf (A : Int → Bool → Prop) (capacity : Nat) (ss : List Source) (p : Picked)
    (ss' : List Source) (p' : Picked) : Prop where
  picks : Picks A ss p ss' p'
  fits : p.batch.length ≤ capacity → p'.batch.length ≤ capacity
  exhausts : p'.batch.length < capacity → ∀ s ∈ ss', s.buffer = []
  served : p.batch.length + ss.length ≤ capacity → ∀ s ∈ ss, Served A s p'

theorem forall_buffer_eq_nil {ss : List Source} (h : buffered ss = 0) :
    ∀ s ∈ ss, s.buffer = [] := by
  induction ss with
  | nil => simp
  | cons t ss ih =>
    rw [buffered_cons, Nat.add_eq_zero_iff] at h
    exact List.forall_mem_cons.mpr ⟨List.length_eq_zero_iff.mp h.1, ih h.2⟩

theorem every_rounds (hask : ∀ id, (ask id).Every E (A id)) (capacity : Nat) :
    ∀ (count : Nat) (ss : List Source) (p : Picked), buffered ss ≤ count →
      (rounds ask capacity count ss p).Every E fun r => BatchOf A capacity ss p r.1 r.2
  | 0, ss, p, hc => by
      have hnil := forall_buffer_eq_nil (Nat.le_zero.mp hc)
      exact ⟨.refl ss p, id, fun _ => hnil, fun _ s hs id hid => by simp [hnil s hs] at hid⟩
  | count + 1, ss, p, hc => by
      rw [rounds]
      split
      · next hgo =>
        simp only [Bool.and_eq_true, decide_eq_true_eq, List.any_eq_true, Bool.not_eq_eq_eq_not,
          Bool.not_true, List.isEmpty_eq_false_iff] at hgo
        obtain ⟨hroom, s, hs, hne⟩ := hgo
        have hpos : buffered ss ≠ 0 := fun h => hne (forall_buffer_eq_nil h s hs)
        refine (every_round hask capacity ss p).bind fun r hr => ?_
        have hlt := hr.handsOut hroom hpos
        refine (every_rounds hask capacity count r.1 r.2 (by omega)).imp fun r' hr' => ?_
        exact ⟨hr.picks.trans hr'.picks, fun h => hr'.fits (hr.fits h), hr'.exhausts,
          fun h s hs => (hr.served h s hs).imp hr'.picks.seen_subset⟩
      · next hstop =>
        simp only [Bool.and_eq_true, decide_eq_true_eq, List.any_eq_true, Bool.not_eq_eq_eq_not,
          Bool.not_true, List.isEmpty_eq_false_iff, not_and, not_exists, not_not] at hstop
        refine ⟨.refl ss p, id, hstop, fun h s hs id hid => ?_⟩
        have hlength := List.length_pos_of_mem hs
        simp [hstop (by omega) s hs] at hid

/-- **A batch, whatever is answered.** -/
theorem every_interleave (hask : ∀ id, (ask id).Every E (A id)) (capacity : Nat)
    (ss : List Source) (seen : List Int) :
    (interleave ask capacity ss seen).Every E fun r => BatchOf A capacity ss ⟨[], seen⟩ r.1 r.2 :=
  every_rounds hask capacity _ ss _ (Nat.le_refl _)

end Source

end GeoReplication
