import GeoReplication.Proofs.Tick.Interleave
import GeoReplication.Proofs.Tick.Pages
import GeoReplication.Tick.Basic
import Mathlib.Data.List.Nodup
import Mathlib.Data.List.Perm.Subperm

/-!
# Proofs/Tick/Budget — how many steps a tick may still make

    among N projects:     one step for each that may still be picked                     N
                          one for each page that a source may still look up         2N + 2

A step either picks a project that was not picked before, or leaves all buffers empty, and then
every source has come closer to its last page or was done (`Affords.step`).  It does not matter
which candidates there are whenever they are looked up: a page holds projects behind the last one,
and there are only so many of these.
-/

namespace GeoReplication

namespace Source

variable {U : List Int} {s s' : Source}

/-! ## What a source may still cost -/

/-- A bound on the steps for a source: its look-ups, and one more to empty its buffer. -/
def cost (U : List Int) (s : Source) : Nat := s.lookups U + if s.buffer = [] then 0 else 1

theorem cost_handOut_le (U : List Int) (s : Source) (k : Nat) :
    (s.handOut k).cost U ≤ s.cost U := by
  have hlookups : (s.handOut k).lookups U = s.lookups U := rfl
  rw [cost, cost, hlookups]
  by_cases hbuffer : s.buffer = []
  · rw [if_pos (by rw [buffer_handOut, hbuffer, List.drop_nil])]
    exact Nat.le_add_right _ _
  · rw [if_neg hbuffer]
    split <;> omega

theorem cost_begin_le (U : List Int) (c : Category) (start : Int) :
    (Source.begin c start).cost U ≤ 2 * U.length + 2 := by
  have hempty : (Source.begin c start).buffer = [] := rfl
  rw [cost, if_pos hempty, Nat.add_zero]
  exact lookups_le _ U

/-- A source before and after a refill, when all candidates that were looked up are of `U`. -/
structure Refilled (U : List Int) (s s' : Source) : Prop where
  buffer : ∀ id ∈ s'.buffer, id ∈ s.buffer ∨ id ∈ U
  closer : s.isDue = true → s'.lookups U < s.lookups U
  same : ¬ s.isDue = true → s' = s

namespace Refilled

theorem page {size : Nat} {page : List Int} (hsize : 0 < size) (hdue : s.isDue = true)
    (hpage : ∀ id ∈ page, id ∈ U ∧ s.afterId < id) : Refilled U s (s.accept size page) where
  buffer id hid := by
    rw [buffer_accept, List.mem_append] at hid
    exact hid.imp_right fun hid => (hpage id (cut_subset s page hid)).1
  closer _ := lookups_accept_lt hsize (isDue_iff.mp hdue).2 hpage
  same h := absurd hdue h

theorem giveUp (hdue : s.isDue = true) : Refilled U s s.giveUp where
  buffer _ := .inl
  closer _ := by
    have hopen : ¬ s.lookups U = 0 := by
      rw [lookups_eq_zero_iff, (isDue_iff.mp hdue).2]
      exact Bool.false_ne_true
    exact Nat.pos_of_ne_zero hopen
  same h := absurd hdue h

theorem notDue (h : ¬ s.isDue = true) : Refilled U s s :=
  ⟨fun _ => .inl, fun hdue => absurd hdue h, fun _ => rfl⟩

theorem cost_le (h : Refilled U s s') : s'.cost U ≤ s.cost U := by
  by_cases hdue : s.isDue = true
  · have hcloser := h.closer hdue
    rw [cost, cost, if_pos (isDue_iff.mp hdue).1]
    split <;> omega
  · rw [h.same hdue]

/-- With an empty buffer a source would cost less. -/
theorem lookups_le (h : Refilled U s s') : s'.lookups U ≤ s.cost U - 1 := by
  by_cases hdue : s.isDue = true
  · have hcloser := h.closer hdue
    rw [cost]
    omega
  · rw [h.same hdue, cost]
    by_cases hbuffer : s.buffer = []
    · rw [lookups_eq_zero_iff.mpr (exhausted_of_not_isDue hdue hbuffer)]
      exact Nat.zero_le _
    · rw [if_neg hbuffer]
      exact Nat.le_refl _

/-- A source that is not done costs a step. -/
theorem cost_pos (h : Refilled U s s') (hdone : ¬ s'.isDone = true) : 0 < s.cost U := by
  by_cases hdue : s.isDue = true
  · have hcloser := h.closer hdue
    rw [cost]
    omega
  · rw [h.same hdue, isDone_iff, not_and] at hdone
    have hbuffer : s.buffer ≠ [] := fun hnil => hdone (exhausted_of_not_isDue hdue hnil) hnil
    rw [cost, if_neg hbuffer]
    exact Nat.succ_pos _

end Refilled

end Source

namespace Scheduler

open Source

variable {U : List Int} {A : Int → Bool → Prop} {budget capacity : Nat} {p : Progress}
  {ss : List Source} {r : List Source × Picked}

/-! ## What a tick may still cost -/

/-- All that a tick has picked and looked up is of `U`, and it will make no more than `budget` steps
that are not the last. -/
structure Affords (U : List Int) (budget : Nat) (p : Progress) : Prop where
  buffers : ∀ s ∈ p.sources, ∀ id ∈ s.buffer, id ∈ U
  seen : p.seen ⊆ U
  nodup : p.seen.Nodup
  cost : ∃ k, (∀ s ∈ p.sources, s.cost U ≤ k) ∧ U.length + k ≤ p.seen.length + budget

theorem affords_outset (U : List Int) (f : Features) (n : Node) (rot : Rotation) :
    Affords U (3 * U.length + 2) ⟨sources f n rot, [], []⟩ where
  buffers s hs id hid := by
    obtain ⟨c, -, rfl⟩ := List.mem_map.mp hs
    exact absurd hid List.not_mem_nil
  seen := List.nil_subset U
  nodup := List.nodup_nil
  cost := by
    refine ⟨2 * U.length + 2, fun s hs => ?_, by rw [List.length_nil]; omega⟩
    obtain ⟨c, -, rfl⟩ := List.mem_map.mp hs
    exact cost_begin_le U c _

/-- **A step uses up some of the budget**: it fills the room, or leaves all buffers empty. -/
theorem Affords.step (h : Affords U budget p) (hss : List.Forall₂ (Refilled U) p.sources ss)
    (hgoesOn : ¬ ss.all isDone = true) (hroom : capacity ≠ 0)
    (hbatch : BatchOf A capacity ss ⟨[], p.seen⟩ r.1 r.2) (scheduled : List Int) :
    ∃ budget', budget = budget' + 1 ∧ Affords U budget' ⟨r.1, r.2.seen, scheduled⟩ := by
  obtain ⟨k, hk, hbudget⟩ := h.cost
  obtain ⟨new, hnew⟩ := hbatch.picks.adds
  have hlookedUp : ∀ s ∈ ss, ∀ id ∈ s.buffer, id ∈ U := fun s hs id hid => by
    obtain ⟨s₀, hs₀, hrefilled⟩ := exists_left_of_forall₂ hss hs
    rcases hrefilled.buffer id hid with hid | hid
    · exact h.buffers s₀ hs₀ id hid
    · exact hid
  have hseen : r.2.seen ⊆ U := fun id hid => by
    rcases hnew.mem_seen.mp hid with hid | hid
    · obtain ⟨s, hs, hid⟩ := hnew.pool id hid
      exact hlookedUp s hs id hid
    · exact h.seen hid
  have hnodup : r.2.seen.Nodup := by
    rw [hnew.seen, List.nodup_append]
    refine ⟨List.nodup_reverse.mpr hnew.nodup, h.nodup, fun id hid id' hid' heq => ?_⟩
    exact hnew.fresh id (List.mem_reverse.mp hid) (heq ▸ hid')
  have hlength : r.2.seen.length = new.length + p.seen.length := by
    rw [hnew.seen, List.length_append, List.length_reverse]
  have hpicked : r.2.batch.length = new.length := congrArg List.length hnew.batch
  have hcount : p.seen.length ≤ U.length := (List.subperm_of_subset h.nodup h.seen).length_le
  -- some source is not done, so the budget is not used up
  have hpos : 0 < k := by
    simp only [List.all_eq_true, not_forall] at hgoesOn
    obtain ⟨s, hs, hopen⟩ := hgoesOn
    obtain ⟨s₀, hs₀, hrefilled⟩ := exists_left_of_forall₂ hss hs
    exact Nat.lt_of_lt_of_le (hrefilled.cost_pos hopen) (hk s₀ hs₀)
  have hcost : ∀ s ∈ r.1, s.cost U ≤ k ∧ (s.buffer = [] → s.cost U ≤ k - 1) := fun s hs => by
    obtain ⟨s₁, hs₁, j, rfl, -⟩ := hbatch.picks.origin hs
    obtain ⟨s₀, hs₀, hrefilled⟩ := exists_left_of_forall₂ hss hs₁
    have hle := hk s₀ hs₀
    refine ⟨((cost_handOut_le U s₁ j).trans hrefilled.cost_le).trans hle, fun hempty => ?_⟩
    have hlookups : (s₁.handOut j).lookups U ≤ s₀.cost U - 1 := hrefilled.lookups_le
    rw [Source.cost, if_pos hempty]
    omega
  have hbuffers : ∀ s ∈ r.1, ∀ id ∈ s.buffer, id ∈ U := fun s hs id hid => by
    obtain ⟨s₁, hs₁, hid⟩ := hbatch.picks.pool ⟨s, hs, hid⟩
    exact hlookedUp s₁ hs₁ id hid
  refine ⟨budget - 1, by omega, hbuffers, hseen, hnodup, ?_⟩
  by_cases hfull : r.2.batch.length < capacity
  · refine ⟨k - 1, fun s hs => (hcost s hs).2 (hbatch.exhausts hfull s hs), ?_⟩
    change U.length + (k - 1) ≤ r.2.seen.length + (budget - 1)
    omega
  · refine ⟨k, fun s hs => (hcost s hs).1, ?_⟩
    change U.length + k ≤ r.2.seen.length + (budget - 1)
    omega

end Scheduler

end GeoReplication
