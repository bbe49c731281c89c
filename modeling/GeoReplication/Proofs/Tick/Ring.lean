import GeoReplication.Proofs.Tick.Pages
import Mathlib.Data.List.Nodup

/-!
# Proofs/Tick/Ring — going round and round

    S, behind start first:   4 5 1 2 3        dispatched so far:
                             ─┬─                                  … 1 2 3
    a tick dispatches        4 5                                  … 1 2 3 4 5
    and the ring turns:      1 2 3 4 5

Candidates `S` in the order in which a source that begins behind `start` hands them out form its
`ring`.  What a tick dispatches begins the ring, and unless that is all of it, the next tick begins
behind the last of these (`Advances`): the ring turns (`ring_turns`).

`Fair` follows one candidate `q` through any number of ticks.  What was dispatched since the latest
`q`, together with what stands before `q` in the ring, holds no candidate more than twice, and none
more than once before the first `q`.  `Balanced` follows all candidates through ticks of one
capacity: those that come first in the ring have been dispatched equally often, the others once
more.
-/

namespace GeoReplication.Source

variable {S D H R : List Int} {start start' q x : Int} {k : Nat}

/-! ## The ring -/

/-- The candidates in the order of a round that begins behind a number. -/
def ring (S : List Int) (start : Int) : List Int := behind S start ++ S.filter (· ≤ start)

theorem ring_perm (S : List Int) (start : Int) : (ring S start).Perm S := by
  have hnot : (fun x : Int => decide (x ≤ start)) = fun x => !decide (start < x) := by
    funext x
    rw [← decide_not, decide_eq_decide]
    exact Int.not_lt.symm
  rw [ring, behind, hnot]
  exact List.filter_append_perm _ S

theorem nodup_ring (hS : S.Pairwise (· < ·)) (start : Int) : (ring S start).Nodup :=
  (ring_perm S start).nodup_iff.mpr (hS.imp Int.ne_of_lt)

/-- A round that begins behind one of the numbers. -/
theorem ring_at (hS : S.Pairwise (· < ·)) (hsplit : D ++ ([x] ++ R) = S) :
    ring S x = R ++ (D ++ [x]) := by
  rw [List.singleton_append] at hsplit
  subst hsplit
  obtain ⟨-, hxR, hlt⟩ := List.pairwise_append.mp hS
  have hR : ∀ y ∈ R, x < y := (List.pairwise_cons.mp hxR).1
  have hD : ∀ y ∈ D, y < x := fun y hy => hlt y hy x List.mem_cons_self
  have hfirst : behind (D ++ x :: R) x = R := by
    have hnone : D.filter (x < ·) = [] := List.filter_eq_nil_iff.mpr fun y hy => by
      have := hD y hy
      simp only [decide_eq_true_eq]
      omega
    have hall : R.filter (x < ·) = R :=
      List.filter_eq_self.mpr fun y hy => decide_eq_true (hR y hy)
    rw [behind, List.filter_append, hnone, List.filter_cons_of_neg (by simp), hall, List.nil_append]
  have hsecond : (D ++ x :: R).filter (· ≤ x) = D ++ [x] := by
    have hnone : R.filter (· ≤ x) = [] := List.filter_eq_nil_iff.mpr fun y hy => by
      have := hR y hy
      simp only [decide_eq_true_eq]
      omega
    have hall : D.filter (· ≤ x) = D :=
      List.filter_eq_self.mpr fun y hy => decide_eq_true (Int.le_of_lt (hD y hy))
    rw [List.filter_append, hall, List.filter_cons_of_pos (by simp), hnone]
  rw [ring, hfirst, hsecond]

theorem filter_le_append_behind (hS : S.Pairwise (· < ·)) (start : Int) :
    S.filter (· ≤ start) ++ behind S start = S := by
  induction S with
  | nil => rfl
  | cons y S ih =>
    obtain ⟨hy, hS⟩ := List.pairwise_cons.mp hS
    have ih := ih hS
    rw [behind] at ih ⊢
    by_cases hle : y ≤ start
    · rw [List.filter_cons_of_pos (by simpa using hle),
        List.filter_cons_of_neg (by simpa using hle), List.cons_append, ih]
    · -- everything lies behind `start`
      have hnone : S.filter (· ≤ start) = [] := List.filter_eq_nil_iff.mpr fun z hz => by
        have := hy z hz
        simp only [decide_eq_true_eq]
        omega
      rw [hnone, List.nil_append] at ih
      rw [List.filter_cons_of_neg (by simpa using hle), hnone,
        List.filter_cons_of_pos (by simpa using Int.not_le.mp hle), ih, List.nil_append]

/-- **The ring turns**: what was handed out comes last. -/
theorem ring_turns (hS : S.Pairwise (· < ·)) (hring : ring S start = D ++ R) :
    ring S (D.getLast?.getD start) = R ++ D := by
  rcases List.eq_nil_or_concat D with rfl | ⟨init, last, rfl⟩
  · rw [List.append_nil]
    exact hring
  rw [List.concat_eq_append] at hring ⊢
  rw [List.getLast?_concat, Option.getD_some]
  have hsplit := filter_le_append_behind hS start
  rw [ring] at hring
  rcases List.append_eq_append_iff.mp hring with ⟨more, hD, hrest⟩ | ⟨rest, hfirst, rfl⟩
  · rcases List.eq_nil_or_concat more with rfl | ⟨init', last', rfl⟩
    · -- just the first leg was handed out
      rw [List.append_nil] at hD
      rw [hrest, ← hD, List.nil_append, ← List.append_assoc] at hsplit
      rw [ring_at hS hsplit, List.nil_append, List.append_assoc]
    · -- the second leg was begun
      rw [List.concat_eq_append, ← List.append_assoc] at hD
      obtain ⟨rfl, hlast⟩ := List.append_inj' hD rfl
      obtain rfl : last = last' := (List.cons.inj hlast).1
      rw [hrest, List.concat_eq_append, List.append_assoc, List.append_assoc] at hsplit
      rw [ring_at hS hsplit]
      simp only [List.append_assoc]
  · rw [hfirst, List.append_assoc, ← List.append_assoc] at hsplit
    rw [ring_at hS hsplit]
    simp only [List.append_assoc]

/-! ## Ticks -/

/-- A tick that begins behind `start` dispatches `D`, and the next begins behind `start'`. -/
structure Advances (S : List Int) (start : Int) (D : List Int) (start' : Int) : Prop where
  begins : D <+: ring S start
  resumes : D.length < S.length → start' = D.getLast?.getD start

/-- A tick that dispatches nothing. -/
theorem Advances.idle (S : List Int) (start : Int) : Advances S start [] start :=
  ⟨List.nil_prefix, fun _ => rfl⟩

namespace Advances

theorem nodup (h : Advances S start D start') (hS : S.Pairwise (· < ·)) : D.Nodup :=
  (nodup_ring hS start).sublist h.begins.sublist

/-- All of the ring was dispatched, or the ring has turned. -/
theorem cases (h : Advances S start D start') (hS : S.Pairwise (· < ·)) :
    D = ring S start ∨ ∃ R, ring S start = D ++ R ∧ ring S start' = R ++ D := by
  obtain ⟨R, hR⟩ := h.begins
  have hlength := (ring_perm S start).length_eq
  rw [← hR, List.length_append] at hlength
  by_cases hall : D.length < S.length
  · rw [h.resumes hall]
    exact .inr ⟨R, hR.symm, ring_turns hS hR.symm⟩
  · have hnil : R = [] := List.length_eq_zero_iff.mp (by omega)
    rw [hnil, List.append_nil] at hR
    exact .inl hR

end Advances

/-! ## Windows between two dispatches -/

/-- What was dispatched since the latest `q`. -/
def since (q : Int) (H : List Int) : List Int := H.reverse.takeWhile (· ≠ q)

/-- How often others may be dispatched before `q` is: once, and twice when `q` had its turn. -/
def bound (q : Int) (H : List Int) : Nat := if q ∈ H then 2 else 1

theorem since_of_notMem (hq : q ∉ H) : since q H = H.reverse := by
  rw [since, List.takeWhile_eq_self_iff]
  intro y hy
  simp only [ne_eq, decide_eq_true_eq]
  rintro rfl
  exact hq (List.mem_reverse.mp hy)

theorem since_append_of_notMem (hq : q ∉ D) : since q (H ++ D) = D.reverse ++ since q H := by
  rw [since, List.reverse_append, List.takeWhile_append_of_pos, since]
  intro y hy
  simp only [ne_eq, decide_eq_true_eq]
  rintro rfl
  exact hq (List.mem_reverse.mp hy)

/-- Only what comes before a `q` counts. -/
theorem takeWhile_append_of_mem (hq : q ∈ D) :
    (D ++ R).takeWhile (· ≠ q) = D.takeWhile (· ≠ q) := by
  rw [List.takeWhile_append, if_neg]
  intro hlength
  have hwhole := (List.takeWhile_prefix fun y => decide (y ≠ q)).eq_of_length hlength
  rw [← hwhole] at hq
  have hne := List.mem_takeWhile_imp hq
  simp at hne

theorem since_append_of_mem (hq : q ∈ D) : since q (H ++ D) = since q D := by
  rw [since, List.reverse_append, takeWhile_append_of_mem (List.mem_reverse.mpr hq), since]

theorem count_takeWhile_le (p : Int → Bool) (hD : D.Nodup) (x : Int) :
    (D.takeWhile p).count x ≤ 1 :=
  List.nodup_iff_count_le_one.mp (hD.sublist (List.takeWhile_sublist p)) x

theorem count_since_le (hD : D.Nodup) (q x : Int) : (since q D).count x ≤ 1 :=
  count_takeWhile_le _ (List.nodup_reverse.mpr hD) x

theorem bound_append_of_mem (hq : q ∈ D) : bound q (H ++ D) = 2 :=
  if_pos (List.mem_append_right _ hq)

theorem bound_append_of_notMem (hq : q ∉ D) : bound q (H ++ D) = bound q H := by
  simp only [bound, List.mem_append, hq, or_false]

/-- **Fairness towards `q`**: with what stands before it in the ring, others never come up more
often than the bound says. -/
structure Fair (S : List Int) (q : Int) (H : List Int) (start : Int) : Prop where
  windows : ∀ H', H' <+: H → ∀ x, (since q H').count x ≤ bound q H'
  ahead : ∀ x, (since q H).count x + ((ring S start).takeWhile (· ≠ q)).count x ≤ bound q H

theorem Fair.begin (hS : S.Pairwise (· < ·)) (q start : Int) : Fair S q [] start where
  windows H' hH' x := by
    rw [List.prefix_nil.mp hH']
    exact Nat.zero_le _
  ahead x := by
    have := count_takeWhile_le (fun y => decide (y ≠ q)) (nodup_ring hS start) x
    simpa [since, bound] using this

/-- **A tick is fair** if those before it were. -/
theorem Fair.advance (hS : S.Pairwise (· < ·)) (hq : q ∈ S) (h : Fair S q H start)
    (hD : Advances S start D start') : Fair S q (H ++ D) start' where
  windows H' hH' x := by
    rcases List.prefix_or_prefix_of_prefix hH' (List.prefix_append H D) with hold | ⟨D', rfl⟩
    · exact h.windows H' hold x
    have hD' : D' <+: D := (List.prefix_append_right_inj H).mp hH'
    by_cases hmem : q ∈ D'
    · rw [since_append_of_mem hmem, bound_append_of_mem hmem]
      exact (count_since_le ((hD.nodup hS).sublist hD'.sublist) q x).trans
        (Nat.le_succ 1)
    · -- all of it stood before `q` in the ring
      rw [since_append_of_notMem hmem, bound_append_of_notMem hmem]
      obtain ⟨R, hR⟩ := hD'.trans hD.begins
      have hahead := h.ahead x
      rw [← hR, List.takeWhile_append_of_pos] at hahead
      · simp only [List.count_append, List.count_reverse] at hahead ⊢
        omega
      · rintro y hy
        exact decide_eq_true (by rintro rfl; exact hmem hy)
  ahead x := by
    by_cases hmem : q ∈ D
    · rw [since_append_of_mem hmem, bound_append_of_mem hmem]
      exact Nat.add_le_add (count_since_le (hD.nodup hS) q x)
        (count_takeWhile_le _ (nodup_ring hS start') x)
    rcases hD.cases hS with rfl | ⟨R, hR, hR'⟩
    · exact absurd ((ring_perm S start).mem_iff.mpr hq) hmem
    · -- what was dispatched stood before `q`, and now stands behind it
      have hqR : q ∈ R := by
        have hqS := (ring_perm S start).mem_iff.mpr hq
        rw [hR, List.mem_append] at hqS
        exact hqS.resolve_left hmem
      have hahead := h.ahead x
      rw [hR, List.takeWhile_append_of_pos] at hahead
      · rw [since_append_of_notMem hmem, bound_append_of_notMem hmem, hR',
          takeWhile_append_of_mem hqR]
        simp only [List.count_append, List.count_reverse] at hahead ⊢
        omega
      · rintro y hy
        exact decide_eq_true (by rintro rfl; exact hmem hy)

/-- Before the first `q` no other comes up twice. -/
theorem Fair.count_first_le (h : Fair S q H start) {mid post : List Int} (hH : H = mid ++ post)
    (hmid : q ∉ mid) (x : Int) : mid.count x ≤ 1 := by
  have hwindow := h.windows mid ⟨post, hH.symm⟩ x
  rwa [since_of_notMem hmid, List.count_reverse, bound, if_neg hmid] at hwindow

/-- After a `q` no other comes up three times before the next. -/
theorem Fair.count_between_le (h : Fair S q H start) {pre mid post : List Int}
    (hH : H = pre ++ q :: (mid ++ post)) (hmid : q ∉ mid) (x : Int) : mid.count x ≤ 2 := by
  have hprefix : pre ++ [q] ++ mid <+: H := ⟨post, by simp [hH]⟩
  have hwindow := h.windows _ hprefix x
  rw [since_append_of_notMem hmid, List.count_append, List.count_reverse] at hwindow
  have hbound : bound q (pre ++ [q] ++ mid) ≤ 2 := by
    rw [bound]
    split <;> omega
  omega

/-! ## Ticks of one capacity -/

/-- Those that wait longest have been dispatched `m` times, the others once more; there are no
others when every tick has room for all. -/
structure Balanced (S : List Int) (k : Nat) (H : List Int) (start : Int) (m : Nat)
    (waiting served : List Int) : Prop where
  ring_eq : ring S start = waiting ++ served
  count_waiting : ∀ x ∈ waiting, H.count x = m
  count_served : ∀ x ∈ served, H.count x = m + 1
  room : S.length ≤ k → served = []

namespace Balanced

variable {m : Nat} {waiting served : List Int}

theorem begin (S : List Int) (k : Nat) (start : Int) :
    Balanced S k [] start 0 (ring S start) [] :=
  ⟨(List.append_nil _).symm, fun _ _ => rfl, fun _ h => absurd h List.not_mem_nil, fun _ => rfl⟩

/-- Everyone had a turn. -/
theorem advance_all (hS : S.Pairwise (· < ·)) (h : Balanced S k H start m waiting served)
    (hroom : S.length ≤ k) (start' : Int) :
    Balanced S k (H ++ ring S start) start' (m + 1) (ring S start') [] := by
  refine ⟨(List.append_nil _).symm, fun x hx => ?_, fun x hx => absurd hx List.not_mem_nil,
    fun _ => rfl⟩
  have hmem : x ∈ ring S start :=
    (ring_perm S start).mem_iff.mpr ((ring_perm S start').mem_iff.mp hx)
  rw [List.count_append, List.count_eq_one_of_mem (nodup_ring hS start) hmem]
  rw [h.ring_eq, h.room hroom, List.append_nil] at hmem
  rw [h.count_waiting x hmem]

/-- **A tick keeps it even**: first come those that wait. -/
theorem advance (hS : S.Pairwise (· < ·)) (h : Balanced S k H start m waiting served)
    (hD : Advances S start D start') (hlength : D.length = min k S.length) :
    ∃ m' waiting' served', Balanced S k (H ++ D) start' m' waiting' served' := by
  have hring := (ring_perm S start).length_eq
  rcases hD.cases hS with rfl | ⟨R, hR, hR'⟩
  · exact ⟨_, _, _, h.advance_all hS (by omega) start'⟩
  by_cases hroom : S.length ≤ k
  · have hnil : R = [] := by
      rw [hR, List.length_append] at hring
      exact List.length_eq_zero_iff.mp (by omega)
    rw [hnil, List.append_nil] at hR
    rw [← hR]
    exact ⟨_, _, _, h.advance_all hS hroom start'⟩
  have hnodup := nodup_ring hS start
  rw [hR] at hnodup
  obtain ⟨hnodupD, -, hapart⟩ := List.nodup_append.mp hnodup
  have hin : ∀ x ∈ D, (H ++ D).count x = H.count x + 1 := fun x hx => by
    rw [List.count_append, List.count_eq_one_of_mem hnodupD hx]
  have hout : ∀ x ∈ R, (H ++ D).count x = H.count x := fun x hx => by
    rw [List.count_append, List.count_eq_zero.mpr fun hD => hapart x hD x hx rfl, Nat.add_zero]
  have hsame := h.ring_eq.symm.trans hR
  rcases List.append_eq_append_iff.mp hsame with ⟨more, rfl, rfl⟩ | ⟨rest, rfl, rfl⟩
  · -- all that waited had a turn, and some of the others
    refine ⟨m + 1, R ++ waiting, more, by rw [hR', List.append_assoc], fun x hx => ?_,
      fun x hx => ?_, fun hle => absurd hle hroom⟩
    · rcases List.mem_append.mp hx with hx | hx
      · rw [hout x hx, h.count_served x (List.mem_append_right _ hx)]
      · rw [hin x (List.mem_append_left _ hx), h.count_waiting x hx]
    · rw [hin x (List.mem_append_right _ hx), h.count_served x (List.mem_append_left _ hx)]
  · -- some of those that waited had a turn
    refine ⟨m, rest, served ++ D, by rw [hR', List.append_assoc], fun x hx => ?_, fun x hx => ?_,
      fun hle => absurd hle hroom⟩
    · rw [hout x (List.mem_append_left _ hx), h.count_waiting x (List.mem_append_right _ hx)]
    · rcases List.mem_append.mp hx with hx | hx
      · rw [hout x (List.mem_append_right _ hx), h.count_served x hx]
      · rw [hin x hx, h.count_waiting x (List.mem_append_left _ hx)]

/-- No two have been dispatched equally often but for one time. -/
theorem count_le (h : Balanced S k H start m waiting served) {x y : Int} (hx : x ∈ S) (hy : y ∈ S) :
    H.count x ≤ H.count y + 1 := by
  have hcount : ∀ z ∈ S, m ≤ H.count z ∧ H.count z ≤ m + 1 := fun z hz => by
    have hmem := (ring_perm S start).mem_iff.mpr hz
    rw [h.ring_eq, List.mem_append] at hmem
    rcases hmem with hmem | hmem
    · rw [h.count_waiting z hmem]
      omega
    · rw [h.count_served z hmem]
      omega
  have hlow := (hcount y hy).1
  have hhigh := (hcount x hx).2
  omega

end Balanced

end GeoReplication.Source
