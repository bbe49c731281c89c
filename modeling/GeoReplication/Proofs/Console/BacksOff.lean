import GeoReplication.Console.PollPace
import Mathlib.Algebra.Group.Nat.Defs
import Mathlib.Data.List.Induction

/-!
# Proofs/Console/BacksOff — the waits between polls, without the pace

    polls   watched  watched  watched  hidden  watched  watched
    waits   30 s     45 s     60 s     240 s   30 s     45 s

The pace carries one number from poll to poll, the wait that is due.  It is always the shortest wait
lengthened once for every watched poll since the last hidden one, as far as the limit lets it
(`after_eq_lengthened`).  So the waits follow from the polls alone: `waits_in_closed_form`.
-/

namespace GeoReplication.PollPace

variable {p : PollPace}

/-! ## The pace after some polls -/

/-- The pace that some polls leave behind. -/
def after (p : PollPace) (polls : List Bool) : PollPace :=
  polls.foldl (fun q isHidden => (q.next isHidden).2) p

theorem after_concat (p : PollPace) (polls : List Bool) (isHidden : Bool) :
    p.after (polls ++ [isHidden]) = ((p.after polls).next isHidden).2 := by
  rw [after, List.foldl_append, List.foldl_cons, List.foldl_nil, after]

/-- Each wait is the one due at the pace that the polls before it have left. -/
theorem waits_eq_mapIdx (p : PollPace) (polls : List Bool) :
    p.waits polls = polls.mapIdx fun i isHidden => (p.after (polls.take i)).next isHidden := by
  induction polls generalizing p with
  | nil => rfl
  | cons isHidden polls ih =>
    rw [waits, List.mapIdx_cons, ih]
    rfl

/-! ## Watched polls since the last hidden one -/

/-- How many polls were watched since the last hidden one, or since the beginning. -/
def watched (polls : List Bool) : Nat := (polls.reverse.takeWhile fun isHidden => !isHidden).length

theorem watched_concat_hidden (polls : List Bool) : watched (polls ++ [true]) = 0 := by
  rw [watched, List.reverse_concat, List.takeWhile_cons_of_neg (by decide), List.length_nil]

theorem watched_concat_watched (polls : List Bool) :
    watched (polls ++ [false]) = watched polls + 1 := by
  rw [watched, List.reverse_concat, List.takeWhile_cons_of_pos rfl, List.length_cons, watched]

/-- The pace after `v` watched polls in a row, begun with the shortest wait. -/
def lengthened (p : PollPace) (v : Nat) : PollPace :=
  { p with current := min p.max (p.starting + v * p.increment) }

/-! ## One poll -/

theorem next_lengthened_hidden (h : p.starting ≤ p.max) (v : Nat) :
    (p.lengthened v).next true = (p.hidden, p.lengthened 0) := by
  have hshortest : min p.max (p.starting + 0 * p.increment) = p.starting := by
    rw [Nat.zero_mul, Nat.add_zero, Nat.min_eq_right h]
  simp only [next, lengthened, if_true, hshortest]

/-- Cutting a wait to the limit before it is lengthened makes no difference. -/
theorem next_lengthened_watched (p : PollPace) (v : Nat) :
    (p.lengthened v).next false = ((p.lengthened v).current, p.lengthened (v + 1)) := by
  have hlonger : min (min p.max (p.starting + v * p.increment) + p.increment) p.max =
      min p.max (p.starting + (v + 1) * p.increment) := by
    rw [Nat.succ_mul]
    omega
  simp only [next, lengthened, Bool.false_eq_true, if_false, hlonger]

/-! ## All polls -/

theorem lengthened_zero {starting max : Nat} (h : starting ≤ max) (hidden increment : Nat) :
    (start starting max hidden increment).lengthened 0 = start starting max hidden increment := by
  simp only [lengthened, start, Nat.zero_mul, Nat.add_zero, Nat.min_eq_right h]

/-- **What the pace carries is a count of watched polls.** -/
theorem after_eq_lengthened (h : p.starting ≤ p.max) (hbegin : p.lengthened 0 = p)
    (polls : List Bool) : p.after polls = p.lengthened (watched polls) := by
  -- The last poll decides whether the count goes on, so the induction takes polls off the end.
  induction polls using List.reverseRecOn with
  | nil => exact hbegin.symm
  | append_singleton polls isHidden ih =>
    rw [after_concat, ih]
    cases isHidden with
    | true => rw [next_lengthened_hidden h, watched_concat_hidden]
    | false => rw [next_lengthened_watched, watched_concat_watched]

/-! ## The waits -/

/-- The waits before polls, hidden or not. -/
def delays (p : PollPace) (polls : List Bool) : List Nat := (p.waits polls).map Prod.fst

variable {starting max : Nat}

theorem delays_start (h : starting ≤ max) (hidden increment : Nat) (polls : List Bool) :
    (start starting max hidden increment).delays polls = polls.mapIdx fun i isHidden =>
      if isHidden then hidden
      else min max (starting + watched (polls.take i) * increment) := by
  have hpoll : ∀ i isHidden,
      (((start starting max hidden increment).after (polls.take i)).next isHidden).1 =
        if isHidden then hidden
        else min max (starting + watched (polls.take i) * increment) := by
    intro i isHidden
    rw [after_eq_lengthened h (lengthened_zero h hidden increment)]
    cases isHidden with
    | true => rfl
    | false => rfl
  refine List.ext_getElem? fun i => ?_
  rw [delays, waits_eq_mapIdx, List.getElem?_map, List.getElem?_mapIdx, List.getElem?_mapIdx,
    Option.map_map]
  exact congrArg (polls[i]?.map ·) (funext (hpoll i))

/-- The count does not fall while polls are watched. -/
theorem watched_take_le {polls : List Bool} {i j : Nat} (hij : i ≤ j)
    (hwatched : ∀ k, i ≤ k → k < j → polls[k]? = some false) :
    watched (polls.take i) ≤ watched (polls.take j) := by
  induction hij with
  | refl => exact Nat.le_refl _
  | @step j hij ih =>
    have hone := watched_concat_watched (polls.take j)
    rw [List.take_add_one, hwatched j hij (Nat.lt_succ_self j), Option.toList_some, hone]
    exact Nat.le_succ_of_le (ih fun k hik hkj => hwatched k hik (Nat.lt_succ_of_lt hkj))

/-- Every pace on the way carries a wait within the limit. -/
theorem current_le_max (h : starting ≤ max) (hidden increment : Nat) (polls : List Bool)
    {q : PollPace} (hq : q ∈ start starting max hidden increment ::
      ((start starting max hidden increment).waits polls).map Prod.snd) :
    q.current ≤ max ∧ q.increment = increment := by
  rw [waits_eq_mapIdx, List.mem_cons, List.mem_map] at hq
  rcases hq with rfl | ⟨wait, hwait, rfl⟩
  · exact ⟨h, rfl⟩
  · obtain ⟨i, hi, rfl⟩ := List.mem_mapIdx.mp hwait
    rw [← after_concat, after_eq_lengthened h (lengthened_zero h hidden increment)]
    exact ⟨Nat.min_le_left _ _, rfl⟩

/-- **The waits follow from the polls alone.**  A hidden poll waits the hidden time, a watched one
the shortest wait lengthened once for every watched poll since the last hidden one, up to the limit.
So waits do not get shorter while someone is watching, and stay within the limit.  With durations
below 2⁶⁴ milliseconds no wait is ever lengthened to 2⁶⁴ seconds. -/
theorem waits_in_closed_form (h : starting ≤ max) (hidden increment : Nat) (polls : List Bool) :
    ((start starting max hidden increment).delays polls = polls.mapIdx fun i isHidden =>
      if isHidden then hidden
      else min max (starting + watched (polls.take i) * increment)) ∧
    (∀ (i j : Nat) wait wait', i ≤ j → (∀ k, i ≤ k → k ≤ j → polls[k]? = some false) →
      ((start starting max hidden increment).delays polls)[i]? = some wait →
      ((start starting max hidden increment).delays polls)[j]? = some wait' →
        wait ≤ wait' ∧ wait' ≤ max) ∧
    (max < 2 ^ 64 → increment < 2 ^ 64 →
      ∀ q ∈ start starting max hidden increment ::
          ((start starting max hidden increment).waits polls).map Prod.snd,
        q.current + q.increment < 2 ^ 64 * 1000) := by
  have hclosed := delays_start h hidden increment polls
  refine ⟨hclosed, fun i j wait wait' hij hwatched hwait hwait' => ?_,
    fun hmax hincrement q hq => ?_⟩
  · have hcount : watched (polls.take i) ≤ watched (polls.take j) :=
      watched_take_le hij fun k hik hkj => hwatched k hik (Nat.le_of_lt hkj)
    have hlonger : watched (polls.take i) * increment ≤ watched (polls.take j) * increment :=
      Nat.mul_le_mul_right increment hcount
    rw [hclosed, List.getElem?_mapIdx, hwatched i (Nat.le_refl i) hij] at hwait
    rw [hclosed, List.getElem?_mapIdx, hwatched j hij (Nat.le_refl j)] at hwait'
    obtain rfl := Option.some.inj hwait
    obtain rfl := Option.some.inj hwait'
    refine ⟨Nat.le_min.mpr ⟨Nat.min_le_left _ _, ?_⟩, Nat.min_le_left _ _⟩
    exact Nat.le_trans (Nat.min_le_right _ _) (Nat.add_le_add_left hlonger starting)
  · obtain ⟨hcurrent, hincreases⟩ := current_le_max h hidden increment polls hq
    rw [hincreases]
    omega

/-- Someone watches long enough to reach the limit, looks away once and comes back. -/
theorem waits_in_closed_form_nodeStatus :
    nodeStatus.delays (List.replicate 8 false ++ [true, false]) =
      [30000, 45000, 60000, 75000, 90000, 105000, 120000, 120000, 240000, 30000] ∧
    (105000 ≤ 120000 ∧ 120000 ≤ nodeStatus.max) ∧
    ∀ q ∈ nodeStatus :: (nodeStatus.waits (List.replicate 8 false ++ [true, false])).map Prod.snd,
      q.current + q.increment < 2 ^ 64 * 1000 := by
  obtain ⟨hdelays, hlonger, hshort⟩ := waits_in_closed_form (show 30000 ≤ 120000 by decide)
    240000 15000 (List.replicate 8 false ++ [true, false])
  have hwatched : ∀ k, 5 ≤ k → k ≤ 7 →
      (List.replicate 8 false ++ [true, false])[k]? = some false := by
    intro k hk hk'
    rw [List.getElem?_append_left (by simp; omega), List.getElem?_replicate_of_lt (by omega)]
  exact ⟨hdelays.trans (by decide), hlonger 5 7 105000 120000 (by decide) hwatched (by decide)
    (by decide), hshort (by decide) (by decide)⟩

end GeoReplication.PollPace
