import GeoReplication.Proofs.Tick.Rotation

/-!
# Proofs/Tick/OneRound — a source goes round exactly once

    L = 1 2 3 4 5, begun behind 2, by twos:     3 4 ┊ 5 ┊ 1 2 ┊          and nothing more

When the look-ups of its category are answered from one list `L`, what a source has popped, what it
holds and what it has still to look up make up the `ring` of `L` at every moment (`OnRound`), in
whatever order it is refilled and popped.  So it never gives a number twice or passes one over, and
the place where it can be resumed is the number popped last until all have been
(`OnRound.resumeAfter`).  Refilled and emptied in turn it gives all of the ring
(`source_goes_round`): every look-up brings it closer to its last page.
-/

namespace GeoReplication

open Relation Source

namespace Source

variable {L P : List Int} {c : Category} {start id : Int} {s : Source} {rest : List Int}

/-! ## Moments of a round -/

@[simp] theorem start_accept (s : Source) (size : Nat) (page : List Int) :
    (s.accept size page).start = s.start := by
  simp only [accept]
  split <;> rfl

@[simp] theorem lastTaken_accept (s : Source) (size : Nat) (page : List Int) :
    (s.accept size page).lastTaken = s.lastTaken := by
  simp only [accept]
  split <;> rfl

/-- A source on its round over `L`, after `P` was popped. -/
structure OnRound (L : List Int) (c : Category) (start : Int) (P : List Int) (s : Source) :
    Prop where
  category : s.category = c
  begun : s.start = start
  lastTaken : s.lastTaken = P.getLast?
  whole : P ++ (s.buffer ++ s.toCome L) = ring L start

namespace OnRound

theorem begin (hL : L.Pairwise (· < ·)) (hpos : ∀ id ∈ L, 0 < id) (hstart : 0 ≤ start)
    (c : Category) : OnRound L c start [] (Source.begin c start) :=
  ⟨rfl, rfl, rfl, toCome_begin hL hpos hstart c⟩

/-- A look-up goes on with the round. -/
theorem accept (h : OnRound L c start P s) {size : Nat} {page : List Int} (hdue : s.isDue = true)
    (hlooks : LooksUp L s (s.accept size page)) : OnRound L c start P (s.accept size page) where
  category := hlooks.category.trans h.category
  begun := (start_accept s size page).trans h.begun
  lastTaken := (lastTaken_accept s size page).trans h.lastTaken
  whole := by rw [hlooks.keeps, ← h.whole, (isDue_iff.mp hdue).1, List.nil_append]

/-- So does a pop. -/
theorem pop (h : OnRound L c start P s) (hbuffer : s.buffer = id :: rest) :
    OnRound L c start (P ++ [id]) (s.pop id rest) where
  category := h.category
  begun := h.begun
  lastTaken := List.getLast?_concat.symm
  whole := by
    rw [← h.whole, hbuffer, List.append_assoc]
    rfl

theorem begins (h : OnRound L c start P s) : P <+: ring L start := ⟨_, h.whole⟩

theorem eq_ring_of_isDone (h : OnRound L c start P s) (hdone : s.isDone = true) :
    P = ring L start := by
  obtain ⟨hexhausted, hbuffer⟩ := isDone_iff.mp hdone
  rw [← h.whole, hbuffer, toCome, if_pos hexhausted, List.append_nil, List.append_nil]

/-- Until all were popped the source goes on behind the number popped last. -/
theorem resumeAfter (h : OnRound L c start P s) :
    s.resumeAfter = P.getLast?.getD start ∨ s.resumeAfter = 0 ∧ P = ring L start := by
  rw [Source.resumeAfter]
  split
  · next hdone => exact .inr ⟨rfl, h.eq_ring_of_isDone hdone⟩
  · exact .inl (by rw [h.lastTaken, h.begun])

end OnRound

/-! ## Emptying -/

/-- The source after popping numbers from its buffer. -/
def popAll (s : Source) : List Int → Source
  | [] => s
  | id :: rest => popAll (s.pop id rest) rest

theorem OnRound.popAll : ∀ (ids : List Int) {P : List Int} {s : Source}, OnRound L c start P s →
    s.buffer = ids → OnRound L c start (P ++ ids) (s.popAll ids)
  | [], P, _, h, _ => by rwa [List.append_nil]
  | id :: ids, P, s, h, hbuffer => by
      have hrest := OnRound.popAll ids (h.pop hbuffer) rfl
      rwa [← List.append_cons] at hrest

theorem buffer_popAll : ∀ (ids : List Int) (s : Source), s.buffer = ids → (s.popAll ids).buffer = []
  | [], _, h => h
  | _ :: ids, _, _ => buffer_popAll ids _ rfl

/-- What has been looked up does not change. -/
theorem lookups_popAll (L : List Int) : ∀ (ids : List Int) (s : Source),
    (s.popAll ids).lookups L = s.lookups L
  | [], _ => rfl
  | id :: ids, s => lookups_popAll L ids (s.pop id ids)

end Source

namespace Scheduler

variable {sched : Scheduler} {f : CandidateFilter} {c : Category} {L P : List Int} {start : Int}
  {s : Source} {t t' : Site}

/-! ## Using a source -/

/-- At a site the look-ups of a category are answered from `L`: with the first numbers behind the
one that is asked for. -/
def AnswersFrom (sched : Scheduler) (f : CandidateFilter) (c : Category) (L : List Int) (t : Site) :
    Prop :=
  ∀ afterId, (t.call (.findCandidates c f afterId sched.batchSize)).1 =
    .ok ((behind L afterId).take sched.batchSize)

/-- A site without faults answers from its candidates. -/
theorem answersFrom_allCandidates (hfaults : t.faults = []) (hsize : sched.batchSize < Nat.pow 2 63)
    (f : CandidateFilter) (c : Category) :
    AnswersFrom sched f c (t.store.allCandidates f c) t := by
  intro afterId
  have hcall : (t.call (.findCandidates c f afterId sched.batchSize)).1 =
      .ok (t.store.candidates f c afterId sched.batchSize) := by
    simp only [Site.call, hfaults]
    rfl
  rw [hcall, Store.candidates, Store.limited, if_pos hsize]
  rfl

/-- A refill takes in the next page, if one is due. -/
theorem run_refill (ht : AnswersFrom sched f s.category L t) : ((sched.refill f s).run t).1 =
    .ok (if s.isDue then s.accept sched.batchSize ((behind L s.afterId).take sched.batchSize)
      else s) := by
  rw [refill]
  split
  · rw [Program.run_bind, Program.run_attempt, Program.run_call]
    have hreply := ht s.afterId
    revert hreply
    cases t.call (.findCandidates s.category f s.afterId sched.batchSize) with
    | mk reply t' =>
      rintro rfl
      rfl
  · rfl

theorem looksUp_take (sched : Scheduler) (hL : L.Pairwise (· < ·)) (hpos : ∀ id ∈ L, 0 < id)
    (hdue : s.isDue = true) :
    Source.LooksUp L s (s.accept sched.batchSize ((behind L s.afterId).take sched.batchSize)) := by
  refine looksUp_accept (Nat.le_max_right _ 1) hL hpos hdue ⟨(behind L s.afterId).drop
    sched.batchSize, (List.take_append_drop _ _).symm, fun hshort => ?_⟩
  rw [List.length_take] at hshort
  exact List.drop_eq_nil_of_le (by omega)

/-- A source before and after a use of it, with the numbers popped so far: it is refilled, at
whatever site answers from `L`, or popped. -/
inductive Uses (sched : Scheduler) (f : CandidateFilter) (c : Category) (L : List Int) :
    List Int × Source → List Int × Source → Prop
  | refill {P : List Int} {s s' : Source} {t t' : Site} : AnswersFrom sched f c L t →
    (sched.refill f s).run t = (.ok s', t') → Uses sched f c L (P, s) (P, s')
  | pop {P : List Int} {s : Source} {id : Int} {rest : List Int} : s.buffer = id :: rest →
    Uses sched f c L (P, s) (P ++ [id], s.pop id rest)

theorem onRound_refill (hL : L.Pairwise (· < ·)) (hpos : ∀ id ∈ L, 0 < id)
    (h : OnRound L c start P s) (ht : AnswersFrom sched f c L t) :
    ∃ s', ((sched.refill f s).run t).1 = .ok s' ∧ OnRound L c start P s' ∧
      (s.buffer = [] → s'.lookups L ≤ s.lookups L - 1) := by
  rw [← h.category] at ht
  refine ⟨_, run_refill ht, ?_⟩
  split
  · next hdue =>
    have hlooks := looksUp_take sched hL hpos hdue
    exact ⟨h.accept hdue hlooks, fun _ => Nat.le_sub_one_of_lt hlooks.closer⟩
  · next hdue =>
    refine ⟨h, fun hbuffer => ?_⟩
    have hnone : s.lookups L = 0 := lookups_eq_zero_iff.mpr (exhausted_of_not_isDue hdue hbuffer)
    exact hnone.trans_le (Nat.zero_le _)

theorem onRound_uses (hL : L.Pairwise (· < ·)) (hpos : ∀ id ∈ L, 0 < id) {P' : List Int}
    {s' : Source} (h : OnRound L c start P s) (hu : Uses sched f c L (P, s) (P', s')) :
    OnRound L c start P' s' := by
  cases hu with
  | refill ht hrun =>
    obtain ⟨s'', hrun', h', -⟩ := onRound_refill hL hpos h ht
    rw [hrun] at hrun'
    cases hrun'
    exact h'
  | pop hbuffer => exact h.pop hbuffer

theorem onRound_of_uses (hL : L.Pairwise (· < ·)) (hpos : ∀ id ∈ L, 0 < id)
    {u u' : List Int × Source} (hu : ReflTransGen (Uses sched f c L) u u')
    (h : OnRound L c start u.1 u.2) : OnRound L c start u'.1 u'.2 := by
  induction hu with
  | refl => exact h
  | tail _ hstep ih => exact onRound_uses hL hpos ih hstep

/-! ## Refilling and emptying in turn -/

/-- The source is refilled at one site after the other, and emptied each time: what was popped, and
what has become of it. -/
def alternate (sched : Scheduler) (f : CandidateFilter) :
    List Site → Source → Except Failure (List Int × Source)
  | [], s => .ok ([], s)
  | t :: ts, s => do
    let s ← ((sched.refill f s).run t).1
    let (ids, s') ← alternate sched f ts (s.popAll s.buffer)
    return (s.buffer ++ ids, s')

theorem onRound_alternate (hL : L.Pairwise (· < ·)) (hpos : ∀ id ∈ L, 0 < id) :
    ∀ (ts : List Site) {P : List Int} {s : Source}, OnRound L c start P s → s.buffer = [] →
      (∀ t ∈ ts, AnswersFrom sched f c L t) →
      ∃ ids s', sched.alternate f ts s = .ok (ids, s') ∧ OnRound L c start (P ++ ids) s' ∧
        s'.buffer = [] ∧ s'.lookups L ≤ s.lookups L - ts.length
  | [], P, s, h, hbuffer, _ => ⟨[], s, rfl, by rwa [List.append_nil], hbuffer, Nat.le_refl _⟩
  | t :: ts, P, s, h, hbuffer, hts => by
      obtain ⟨ht, hts⟩ := List.forall_mem_cons.mp hts
      obtain ⟨s₁, hrun, h₁, hcloser⟩ := onRound_refill hL hpos h ht
      obtain ⟨ids, s', halternate, h', hbuffer', hlookups⟩ := onRound_alternate hL hpos ts
        (h₁.popAll s₁.buffer rfl) (buffer_popAll s₁.buffer s₁ rfl) hts
      refine ⟨s₁.buffer ++ ids, s', ?_, by rwa [← List.append_assoc], hbuffer', ?_⟩
      · rw [alternate, hrun]
        change (do
          let (ids, s') ← sched.alternate f ts (s₁.popAll s₁.buffer)
          return (s₁.buffer ++ ids, s')) = _
        rw [halternate]
        rfl
      · have hfirst := hcloser hbuffer
        rw [lookups_popAll] at hlookups
        rw [List.length_cons]
        omega

/-- **A source goes round exactly once**, if its look-ups are answered from ascending positive
numbers `L` and it begins behind a number that is not negative.  Refilled and emptied in turn, often
enough, it pops the numbers behind `start` and then the others, each of them once, and is done.
Whatever it is used for, it has popped a beginning of these, and will be resumed behind the last. -/
theorem source_goes_round (hL : L.Pairwise (· < ·)) (hpos : ∀ id ∈ L, 0 < id)
    (hstart : 0 ≤ start) (sched : Scheduler) (f : CandidateFilter) (c : Category) :
    (∀ ts : List Site, (∀ t ∈ ts, AnswersFrom sched f c L t) → 2 * L.length + 2 ≤ ts.length →
      ∃ s, sched.alternate f ts (Source.begin c start) =
          .ok (L.filter (start < ·) ++ L.filter (· ≤ start), s) ∧ s.isDone = true) ∧
    ∀ (P : List Int) (s : Source),
      ReflTransGen (Uses sched f c L) ([], Source.begin c start) (P, s) →
        P <+: L.filter (start < ·) ++ L.filter (· ≤ start) ∧
        (s.resumeAfter = P.getLast?.getD start ∨ s.resumeAfter = 0 ∧ ∀ id ∈ L, id ∈ P) := by
  have hbegin := OnRound.begin hL hpos hstart c
  refine ⟨fun ts hts hlength => ?_, fun P s hu => ?_⟩
  · obtain ⟨ids, s, halternate, hround, hbuffer, hlookups⟩ :=
      onRound_alternate hL hpos ts hbegin rfl hts
    have hbound := lookups_le (Source.begin c start) L
    have hnone : s.lookups L = 0 := by omega
    have hdone : s.isDone = true := isDone_iff.mpr ⟨lookups_eq_zero_iff.mp hnone, hbuffer⟩
    refine ⟨s, ?_, hdone⟩
    rw [halternate, ← List.nil_append ids, hround.eq_ring_of_isDone hdone]
    rfl
  · have hround : OnRound L c start P s := onRound_of_uses hL hpos hu hbegin
    refine ⟨hround.begins, hround.resumeAfter.imp_right fun ⟨hzero, hall⟩ => ⟨hzero, ?_⟩⟩
    rw [hall]
    exact fun id => (ring_perm L start).mem_iff.mpr

/-- Looks candidates up two at a time. -/
def byTwos : Scheduler :=
  ⟨{ Config.standard with batchSize := 2 }, ["default"], .elsewhere, "repositories"⟩

/-- Three projects, begun behind the second: the first page ends with the third. -/
theorem source_goes_round_trio :
    AnswersFrom byTwos (byTwos.filter trioNode) .neverSynced [1, 2, 3] trioSite ∧
    (∃ s, byTwos.alternate (byTwos.filter trioNode) (List.replicate 8 trioSite)
        (Source.begin .neverSynced 2) = .ok ([3, 1, 2], s) ∧ s.isDone = true) ∧
    ∀ (P : List Int) (s : Source), ReflTransGen
      (Uses byTwos (byTwos.filter trioNode) .neverSynced [1, 2, 3])
      ([], Source.begin .neverSynced 2) (P, s) →
        P <+: [3, 1, 2] ∧
        (s.resumeAfter = P.getLast?.getD 2 ∨ s.resumeAfter = 0 ∧ ∀ id ∈ [1, 2, 3], id ∈ P) := by
  have hcandidates : trioSite.store.allCandidates (byTwos.filter trioNode) .neverSynced =
      [1, 2, 3] := by decide
  have hanswers : AnswersFrom byTwos (byTwos.filter trioNode) .neverSynced [1, 2, 3] trioSite :=
    hcandidates ▸ answersFrom_allCandidates rfl (by decide) _ _
  have hstart : (0 : Int) ≤ 2 := by decide
  have hround := source_goes_round (L := [1, 2, 3]) (by decide) (by decide) hstart byTwos
    (byTwos.filter trioNode) .neverSynced
  refine ⟨hanswers, hround.1 (List.replicate 8 trioSite) (fun t ht => ?_) (by decide), hround.2⟩
  rw [List.eq_of_mem_replicate ht]
  exact hanswers

end Scheduler

end GeoReplication
