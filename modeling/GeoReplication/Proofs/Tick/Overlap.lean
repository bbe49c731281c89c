import GeoReplication.Proofs.Program.Abreast
import GeoReplication.Proofs.Tick.Renewals
import GeoReplication.Proofs.Tick.SharedQueue

/-!
# Proofs/Tick/Overlap — ticks that overlap do not dispatch twice

    a:  obtain ── step ──────────────────────────────── renew ✗ ── release
    b:                     (expired) obtain ── step ──────────────────────── … ── release

Ticks under leases of different names take turns effect by effect.  Each gives a lease to nobody but
itself, so a tick whose lease was obtained by another cannot renew it (`not_held_along`), and
without a renewal a step dispatches nothing and is the last one (`Scheduler.orderly_of_follows`).
-/

namespace GeoReplication

open Program Store

/-! ## A tick by itself -/

namespace Moment

/-- The move changes nothing and is given no lease. -/
structure IsIdle (m : Moment) : Prop where
  store : m.after.store = m.site.store
  queues : m.after.queues = m.site.queues
  refused : ∀ key holder ttl, ¬ m.Granted key holder (.obtain ttl)

/-- Asking for a lease that is refused. -/
theorem isIdle_of_refused {s : Site} {key holder : String} {ttl : Nat}
    (h : (s.call (.obtainLease key holder ttl)).1 = .ok false) :
    IsIdle ⟨s, .store (.obtainLease key holder ttl)⟩ := by
  have hnot : ¬ Granted key holder (.obtain ttl) ⟨s, .store (.obtainLease key holder ttl)⟩ := by
    rintro ⟨-, hgranted⟩
    have hreply := congrArg Prod.fst (Program.run_call (.obtainLease key holder ttl) s)
    cases hgranted.symm.trans (hreply.trans h)
  refine ⟨?_, s.queues_call _, ?_⟩
  · rcases settled (r := .obtain ttl) (m := ⟨s, .store (.obtainLease key holder ttl)⟩) rfl with
      ⟨-, hsame⟩ | ⟨hgranted, -⟩
    · exact hsame
    · exact absurd hgranted hnot
  · rintro key' holder' ttl' hgranted
    obtain ⟨⟨⟩, -⟩ := id hgranted
    exact hnot hgranted

end Moment

namespace Scheduler

open Moment

variable {sched : Scheduler} {n : Node} {holder : String} {h : List Moment}

theorem every_tick_leasesAs (hl : sched.lease = .stored holder) (r : Rotation) (limit : Nat) :
    (sched.tick n r limit).Every (Effect.LeasesAs holder) fun _ => True := by
  refine every_tick (.inr rfl) ?_ r limit
  exact
    { lookUp := fun _ _ _ => .inr rfl
      clock := trivial
      uptime := trivial
      inFlight := trivial
      isScheduled := fun _ => trivial
      push := fun _ => trivial
      lease := hl ▸ Lease.does_stored (.inl ⟨_, .obtain _, rfl⟩) (.inl ⟨_, .renew _, rfl⟩)
        (.inl ⟨_, .release, rfl⟩) }

/-- Giving a lease back is one move, however it is answered. -/
theorem follows_cancel {key : String} {r : Except Failure (Except Error Unit)}
    (hf : ((Lease.stored holder).cancel key).attempt.Follows h r) :
    ∃ m, h = [m] ∧ m.effect = .store (.releaseLease key holder) := by
  obtain ⟨s, h', rfl, hrest⟩ := hf
  refine ⟨⟨s, .store (.releaseLease key holder)⟩, ?_, rfl⟩
  have hempty : h' = [] := by
    cases hreply : (s.call (.releaseLease key holder)).1 with
    | ok released =>
      rw [show Moment.reply ⟨s, .store (.releaseLease key holder)⟩ = .ok released from hreply]
        at hrest
      exact hrest.1
    | error f =>
      rw [show Moment.reply ⟨s, .store (.releaseLease key holder)⟩ = .error f from hreply] at hrest
      cases f <;> exact hrest.1
  rw [hempty]

/-- **How a tick ends**: it was skipped and has changed nothing, or it has given its lease back. -/
theorem follows_tick (hl : sched.lease = .stored holder) {r : Rotation} {limit : Nat}
    {result : TickReport × Rotation} (hf : (sched.tick n r limit).Follows h (.ok result)) :
    (result.1.skipped ≠ none ∧ result.2 = r ∧ ∀ m ∈ h, m.IsIdle) ∨
      result.1.skipped = none ∧ ∃ h' m, h = h' ++ [m] ∧
        m.effect = .store (.releaseLease (leaseKey n) holder) := by
  rcases follows_bind.mp hf with ⟨f, -, ⟨⟩⟩ | ⟨obstacle, h₁, h₂, rfl, hobstacle, hf⟩
  have hlooks : ∀ m ∈ h₁, m.IsIdle := fun m hm => by
    have hlook : (sched.obstacle n).Every (· = .store .getPrimaryNode) fun _ => True :=
      every_obstacle rfl
    obtain ⟨s, e⟩ := m
    obtain rfl := hlook.effect_of_follows hobstacle _ hm
    exact ⟨s.store_call_of_writes_nil rfl, s.queues_call _, by rintro _ _ _ ⟨⟨⟩, -⟩⟩
  cases obstacle with
  | some reason =>
    obtain ⟨rfl, hresult⟩ := hf
    cases hresult
    rw [List.append_nil]
    exact .inl ⟨by rintro ⟨⟩, rfl, hlooks⟩
  | none =>
    dsimp only at hf
    rw [hl] at hf
    rcases follows_bind.mp hf with ⟨f, -, ⟨⟩⟩ | ⟨held, h₃, h₄, rfl, hobtain, hf⟩
    obtain ⟨s, rfl, hreply⟩ := follows_call.mp hobtain
    cases held with
    | false =>
      obtain ⟨rfl, hresult⟩ := hf
      cases hresult
      refine .inl ⟨by rintro ⟨⟩, rfl, fun m hm => ?_⟩
      rw [List.append_nil] at hm
      rcases List.mem_append.mp hm with hm | hm
      · exact hlooks m hm
      · rw [List.mem_singleton.mp hm]
        exact isIdle_of_refused hreply.symm
    | true =>
      rcases follows_bind.mp hf with ⟨f, -, ⟨⟩⟩ | ⟨result', h₅, h₆, rfl, hschedule, hf⟩
      rcases follows_bind.mp hf with ⟨f, -, ⟨⟩⟩ | ⟨_, h₇, h₈, rfl, hcancel, hf⟩
      obtain ⟨rfl, hresult⟩ := hf
      cases hresult
      obtain ⟨m, rfl, hm⟩ := follows_cancel hcancel
      have hdoes : sched.Does (fun _ => True) n :=
        ⟨fun _ _ _ => trivial, trivial, trivial, trivial, fun _ => trivial, fun _ => trivial,
          hl ▸ Lease.does_stored trivial trivial trivial⟩
      let asked : Effect :=
        .store (.obtainLease (leaseKey n) holder sched.config.leaseTimeoutMillis)
      exact .inr ⟨(every_schedule hdoes r limit).of_follows hschedule,
        h₁ ++ ⟨s, asked⟩ :: h₅, m, by simp [asked], hm⟩

end Scheduler

/-! ## Ticks together -/

section Together

open Moment Scheduler

variable {ι : Type} [DecidableEq ι] {sched : ι → Scheduler} {holder : ι → String} {n : ι → Node}
  {r : ι → Rotation} {limit : ι → Nat} {s s' : Site} {h : List (ι × Moment)}
  {t : ι → Program (TickReport × Rotation)} {i : ι} {key : String}

/-- Time goes on and others do as they like, but nobody is given a lease under one of these
names. -/
structure Site.Elsewhere (holder : ι → String) (s s' : Site) : Prop where
  now : s.now ≤ s'.now
  proper : s'.now.IsProper
  leases : ∀ i key, s'.store.holdsLease key (holder i) = true →
    s.store.holdsLease key (holder i) = true

theorem leasesAs_of_abreast (hlease : ∀ i, (sched i).lease = .stored (holder i))
    (hr : Abreast (Site.Elsewhere holder) (fun i => (sched i).tick (n i) (r i) (limit i))
      s h t s') :
    ∀ e ∈ h, e.2.effect.LeasesAs (holder e.1) := fun ⟨j, m⟩ he =>
  hr.effect_of_every (every_tick_leasesAs (hlease j) (r j) (limit j)) m he

/-- **Whoever does not hold a lease** does not come to hold it without asking for one. -/
theorem not_held_along {turns : List (ι × Moment)} (hholder : Function.Injective holder)
    (hturns : ∀ e ∈ turns, e.2.effect.LeasesAs (holder e.1))
    (hown : ∀ m ∈ movesOf i turns, ¬ m.effect.Obtains)
    (hc : Chained (Site.Elsewhere holder) s (turns.map Prod.snd) s')
    (hnot : s.store.holdsLease key (holder i) ≠ true) :
    s'.store.holdsLease key (holder i) ≠ true := by
  refine hc.keeps (I := fun s => s.store.holdsLease key (holder i) ≠ true)
    (fun s s' hnot ho hheld => hnot (ho.leases i key hheld)) (fun m hm hnot => ?_) hnot
  obtain ⟨⟨j, m⟩, he, rfl⟩ := List.mem_map.mp hm
  refine not_held_after (hturns _ he) (fun hsame ttl heffect => ?_) hnot
  obtain rfl := hholder hsame
  refine hown m (mem_movesOf.mpr he) ?_
  rw [show m.effect = _ from heffect]
  trivial

/-- At every moment the clock shows a proper time. -/
theorem proper_at {before after : List (ι × Moment)} {m : Moment}
    (hlease : ∀ i, (sched i).lease = .stored (holder i)) (hnow : s.now.IsProper)
    (hr : Abreast (Site.Elsewhere holder) (fun i => (sched i).tick (n i) (r i) (limit i)) s
      (before ++ (i, m) :: after) t s') : m.site.now.IsProper := by
  refine hr.chained_at.1.keeps (I := fun s => s.now.IsProper) (fun _ _ _ ho => ho.proper)
    (fun m' hm' hproper => ?_) hnow
  obtain ⟨e, he, rfl⟩ := List.mem_map.mp hm'
  rw [now_after (leasesAs_of_abreast hlease hr e (List.mem_append_left _ he))]
  exact hproper

/-- Two do not hold one lease. -/
theorem not_held_of_held {store : Store} {a b : String} (hne : a ≠ b)
    (h : store.holdsLease key a = true) : store.holdsLease key b ≠ true := fun hb => by
  obtain ⟨row, hrow, rfl⟩ := holdsLease_iff.mp h
  obtain ⟨row', hrow', rfl⟩ := holdsLease_iff.mp hb
  exact hne (congrArg _ (Option.some.inj (hrow.symm.trans hrow')))

/-- **A lease that another has obtained** is not renewed, unless it is asked for again. -/
theorem not_renewed_after {j : ι} {before after : List (ι × Moment)} {m : Moment} {ttl : Nat}
    (hlease : ∀ i, (sched i).lease = .stored (holder i)) (hholder : Function.Injective holder)
    (hr : Abreast (Site.Elsewhere holder) (fun i => (sched i).tick (n i) (r i) (limit i)) s
      (before ++ (j, m) :: after) t s')
    (hij : j ≠ i) (hm : m.Granted key (holder j) (.obtain ttl))
    (hown : ∀ m' ∈ movesOf i after, ¬ m'.effect.Obtains) :
    ∀ m' ∈ movesOf i after, ∀ ttl, ¬ m'.Granted key (holder i) (.renew ttl) := by
  intro m' hm' ttl' hrenewed
  obtain ⟨mid, rest, rfl⟩ := List.append_of_mem (mem_movesOf.mp hm')
  have hturns := leasesAs_of_abreast hlease hr
  have hchain := hr.chained_at.2
  rw [List.map_append, List.map_cons] at hchain
  have hlost : m.after.store.holdsLease key (holder i) ≠ true :=
    not_held_of_held (hholder.ne hij) (hm.holds (by rintro ⟨⟩))
  refine not_held_along hholder (fun e he => hturns e (by simp [he])) (fun m hm => hown m ?_)
    (chained_append.mp hchain).1 hlost hrenewed.held
  rw [movesOf_append]
  exact List.mem_append_left _ hm

theorem orderly_movesOf (hlease : ∀ i, (sched i).lease = .stored (holder i))
    (hr : Abreast (Site.Elsewhere holder) (fun i => (sched i).tick (n i) (r i) (limit i))
      s h t s') :
    Orderly (leaseKey (n i)) (holder i) (movesOf i h) := by
  obtain ⟨ms, result, hf⟩ := hr.exists_follows i
  exact (orderly_of_follows (hlease i) hf).1.begins (List.prefix_append _ _)

/-- **After its lease has gone to another** a tick may finish the step it is in.  A step that begins
later dispatches nothing, and leaves the tick incomplete. -/
theorem stops_after_loss {j : ι} {before after : List (ι × Moment)} {m o u : Moment}
    {ttl ttl' : Nat} {ms₁ ms₂ : List Moment}
    (hlease : ∀ i, (sched i).lease = .stored (holder i)) (hholder : Function.Injective holder)
    (hr : Abreast (Site.Elsewhere holder) (fun i => (sched i).tick (n i) (r i) (limit i)) s
      (before ++ (j, m) :: after) t s')
    (hij : j ≠ i) (hm : m.Granted (leaseKey (n i)) (holder j) (.obtain ttl))
    (hmem : o ∈ movesOf i before) (ho : o.Granted (leaseKey (n i)) (holder i) (.obtain ttl'))
    (hafter : movesOf i after = ms₁ ++ u :: ms₂) (hu : BeginsStep (movesOf i before ++ ms₁) u) :
    (∀ m ∈ ms₂, ¬ m.effect.Dispatches) ∧
      ∀ report rotation, t i = done (report, rotation) → report.incomplete = true := by
  have hmoves : movesOf i (before ++ (j, m) :: after) = movesOf i before ++ movesOf i after := by
    rw [movesOf_append, movesOf_cons, if_neg hij]
  have horderly := orderly_movesOf (i := i) hlease hr
  rw [hmoves] at horderly
  have hlost := not_renewed_after hlease hholder hr hij hm
    (horderly.not_again hmem (by rw [ho.1]; trivial))
  rw [hafter, ← List.append_assoc] at hmoves horderly
  have hnone : ∀ m ∈ ms₂, ∀ ttl, ¬ m.Granted (leaseKey (n i)) (holder i) (.renew ttl) :=
    fun m' hm' => hlost m' (by rw [hafter]; simp [hm'])
  refine ⟨horderly.stops hu.1 hnone, fun report rotation ht => ?_⟩
  cases hcomplete : report.incomplete with
  | true => rfl
  | false =>
    -- a tick that has come to an end by itself renewed its lease in its last step
    rcases (orderly_of_follows (hlease i) (hr.follows_done ht)).2 _ _ rfl hcomplete with
      hrenewed | hnoStep
    · rw [hmoves] at hrenewed
      obtain ⟨m', hm', ttl, hgranted⟩ := hrenewed.after_look hu.1
      exact absurd hgranted (hnone m' hm' ttl)
    · exact absurd hu (hnoStep _ u ⟨ms₂, by rw [hmoves]; simp⟩)

/-- What a tick among others keeps to.  Its lease is that of `key` under its own name, `r` is the
rotation with which it began, and `t` is what is left of it after the moves `h`, at `s'`. -/
structure KeepsToLease (key : String) (holder : ι → String) (r : Rotation) (i : ι)
    (h : List (ι × Moment)) (t : Program (TickReport × Rotation)) (s' : Site) : Prop where
  /-- it dispatches only in steps that have renewed its lease -/
  renewed : ∀ ms₁ m ms₂, movesOf i h = ms₁ ++ m :: ms₂ → m.effect.Dispatches →
    RenewedIn key (holder i) ms₁
  /-- if another obtains the lease after it has, it dispatches nothing in any step that begins
  later, whatever the other has done by then, and is incomplete if it ends after such a step -/
  stops : ∀ j before m after ttl, j ≠ i → h = before ++ (j, m) :: after →
    m.Granted key (holder j) (.obtain ttl) →
    (∃ o ∈ movesOf i before, ∃ ttl, o.Granted key (holder i) (.obtain ttl)) →
    ∀ ms₁ u ms₂, movesOf i after = ms₁ ++ u :: ms₂ → BeginsStep (movesOf i before ++ ms₁) u →
      (∀ m ∈ ms₂, ¬ m.effect.Dispatches) ∧
      ∀ report rotation, t = done (report, rotation) → report.incomplete = true
  /-- if it ends after it has obtained the lease, and giving the lease back does not fail, it does
  not hold the lease in the end -/
  released : ∀ result, t = done result →
    (∃ o ∈ movesOf i h, ∃ ttl, o.Granted key (holder i) (.obtain ttl)) →
    (∀ m ∈ movesOf i h, m.effect = .store (.releaseLease key (holder i)) →
      (m.site.call (.releaseLease key (holder i))).1.isOk = true) →
    s'.store.holdsLease key (holder i) = false
  /-- it does not touch the row of another's lease, but for obtaining a lease that has expired, if
  that was to last until a time in the years 0 to 9999 -/
  spared : ∀ m ∈ movesOf i h, ∀ k row, m.site.store.leases.get? k = some row →
    row.holder ≠ holder i → m.after.store.leases.get? k = some row ∨
      (∃ ttl, m.effect = .store (.obtainLease k (holder i) ttl)) ∧
        ∀ e : Time.Instant, e.IsSortable → row.expiresAt = e.stored →
          e.toMicros ≤ m.site.now.toMicros
  /-- if it was skipped, none of its moves has changed the store or a queue, nor is the rotation -/
  skipped : ∀ report rotation, t = done (report, rotation) → report.skipped ≠ none →
    rotation = r ∧
      ∀ m ∈ movesOf i h, m.after.store = m.site.store ∧ m.after.queues = m.site.queues

/-- **Overlapping ticks do not dispatch twice.**  Ticks whose leases have different names take turns
in any way, time passes, and others may do anything but give themselves a lease under one of these
names.  Then every one of the ticks keeps to its lease. -/
theorem overlapping_ticks (hlease : ∀ i, (sched i).lease = .stored (holder i))
    (hholder : Function.Injective holder) (hnow : s.now.IsProper)
    (hr : Abreast (Site.Elsewhere holder) (fun i => (sched i).tick (n i) (r i) (limit i)) s h t s')
    (i : ι) : KeepsToLease (leaseKey (n i)) holder (r i) i h (t i) s' := by
  have hturns := leasesAs_of_abreast hlease hr
  refine ⟨?_, ?_, ?_, ?_, ?_⟩
  · intro ms₁ m ms₂ hm hdispatches
    exact (orderly_movesOf hlease hr).renewed ms₁ m ⟨ms₂, by rw [hm, List.append_assoc]; rfl⟩
      hdispatches
  · rintro j before m after ttl hij rfl hm ⟨o, hmem, ttl', ho⟩ ms₁ u ms₂ hafter hu
    exact stops_after_loss hlease hholder hr hij hm hmem ho hafter hu
  · rintro result ht ⟨o, hmem, ttl, hobtained⟩ hreleased
    rcases follows_tick (hlease i) (hr.follows_done ht) with ⟨-, -, hidle⟩ | ⟨-, ms, m, hlast, hm⟩
    · exact absurd hobtained ((hidle o hmem).refused _ _ _)
    have hgiven := not_held_of_release hm (hreleased m (by rw [hlast]; simp) hm)
    obtain ⟨before, after, rfl, -, hafter⟩ := exists_of_movesOf_eq hlast
    refine Bool.eq_false_iff.mpr (not_held_along hholder (fun e he => hturns e (by simp [he]))
      (fun m' hm' => ?_) hr.chained_at.2 hgiven)
    rw [hafter] at hm'
    exact absurd hm' List.not_mem_nil
  · intro m hm key row hrow hother
    refine (kept_or_taken (hturns _ (mem_movesOf.mp hm)) hrow hother).imp_right ?_
    rintro ⟨hasked, hexpired⟩
    refine ⟨hasked, fun e he heq => ?_⟩
    obtain ⟨before, after, rfl⟩ := List.append_of_mem (mem_movesOf.mp hm)
    exact Time.Instant.toMicros_le_of_stored_le he (proper_at hlease hnow hr) (heq ▸ hexpired)
  · intro report rotation ht hskipped
    rcases follows_tick (hlease i) (hr.follows_done ht) with ⟨-, hsame, hidle⟩ | ⟨hnot, -⟩
    · exact ⟨hsame, fun m hm => ⟨(hidle m hm).store, (hidle m hm).queues⟩⟩
    · exact absurd hnot hskipped

end Together

/-! ## One overtakes the other -/

section Overtaken

open Moment Scheduler

/-- The names of two leases. -/
def rivalNames (i : Bool) : String := if i then "b" else "a"

theorem rivalNames_injective : Function.Injective rivalNames := by
  intro i j
  cases i <;> cases j <;> decide

/-- Ticks for one node under these leases. -/
def rivals (i : Bool) : Program (TickReport × Rotation) :=
  { plainScheduler with lease := .stored (rivalNames i) }.tick narrowNode .empty 10

/-- The first one obtains the lease and makes a step. -/
def oneStep : List (Bool × Moment) × (Bool → Program (TickReport × Rotation)) × Site :=
  inTurn (List.replicate 11 false) rivals pairSite

/-- Its lease expires.  The other one obtains it, finds no room and gives it back. -/
def overtaken : List (Bool × Moment) × (Bool → Program (TickReport × Rotation)) × Site :=
  inTurn (List.replicate 7 true) oneStep.2.1 { oneStep.2.2 with now := ⟨7200, 0⟩ }

/-- The first one goes on. -/
def resumed : List (Bool × Moment) × (Bool → Program (TickReport × Rotation)) × Site :=
  inTurn (List.replicate 3 false) overtaken.2.1 overtaken.2.2

theorem abreast_resumed : Abreast (Site.Elsewhere rivalNames) rivals pairSite
    (oneStep.1 ++ overtaken.1 ++ resumed.1) resumed.2.1 resumed.2.2 := by
  have hstart : Abreast (Site.Elsewhere rivalNames) rivals pairSite [] rivals pairSite := .start
  have hstep := hstart.inTurn (List.replicate 11 false)
  have haway : Site.Elsewhere rivalNames oneStep.2.2 { oneStep.2.2 with now := ⟨7200, 0⟩ } :=
    ⟨by decide +kernel, by decide, fun _ _ => id⟩
  have hexpired := hstep.others haway
  exact (hexpired.inTurn (List.replicate 7 true)).inTurn (List.replicate 3 false)

theorem overlapping_ticks_overtaken : ∃ h t s',
    Abreast (Site.Elsewhere rivalNames) rivals pairSite h t s' ∧
    (∃ report rotation, t false = done (report, rotation) ∧ report.scheduled = [1] ∧
      report.incomplete = true) ∧
    s'.store.holdsLease (leaseKey narrowNode) "a" = false := by
  -- what the second one obtains
  obtain ⟨⟨j, m⟩, hmem, hj, hobtained⟩ : ∃ e ∈ overtaken.1, e.1 = true ∧
      e.2.Granted (leaseKey narrowNode) "b" (.obtain 3600000) := by decide +kernel
  obtain rfl : j = true := hj
  obtain ⟨before, after, hsplit⟩ := List.append_of_mem hmem
  have hturns : ∀ e ∈ overtaken.1, e.1 = true := by decide +kernel
  have hafter : movesOf false after = [] := movesOf_eq_nil_iff.mpr fun e he => by
    rw [hturns e (by rw [hsplit]; simp [he])]
    decide
  -- what the first one has done before, and does next
  obtain ⟨o, ho, hheld⟩ : ∃ o ∈ movesOf false oneStep.1,
      o.Granted (leaseKey narrowNode) "a" (.obtain 3600000) := by decide +kernel
  obtain ⟨look, hlook, hlooked⟩ : ∃ m ∈ movesOf false oneStep.1, m.effect = .uptime := by
    decide +kernel
  have hnext : (movesOf false resumed.1).head?.any (fun u => u.effect = .uptime) = true := by
    decide +kernel
  obtain ⟨u, hhead, hu⟩ := (Option.any_eq_true _ _).mp hnext
  obtain ⟨rest, hresumed⟩ := List.head?_eq_some_iff.mp hhead
  obtain ⟨⟨report, rotation⟩, hended, hscheduled⟩ : ∃ result,
      (resumed.2.1 false).value? = some result ∧ result.1.scheduled = [1] :=
    Option.map_eq_some_iff.mp (by decide +kernel :
      (resumed.2.1 false).value?.map (·.1.scheduled) = some [1])
  have hdone := eq_done_of_value? hended
  have hbefore {m : Moment} (hm : m ∈ movesOf false oneStep.1) :
      m ∈ movesOf false (oneStep.1 ++ before) := by
    rw [movesOf_append]
    exact List.mem_append_left _ hm
  obtain ⟨-, hlost, hgiven, -, -⟩ := @overlapping_ticks Bool _
    (fun i => { plainScheduler with lease := .stored (rivalNames i) }) rivalNames
    (fun _ => narrowNode) (fun _ => .empty) (fun _ => 10) pairSite _ _ _ (fun _ => rfl)
    rivalNames_injective (by decide) abreast_resumed false
  refine ⟨_, _, _, abreast_resumed, ⟨report, rotation, hdone, hscheduled, ?_⟩, ?_⟩
  · refine (hlost true (oneStep.1 ++ before) m (after ++ resumed.1) 3600000 (by decide)
      (by rw [hsplit]; simp) hobtained ⟨o, hbefore ho, _, hheld⟩ [] u rest ?_ ?_).2 report rotation
      hdone
    · rw [movesOf_append, hafter, hresumed]
    · exact ⟨of_decide_eq_true hu, look, List.mem_append_left _ (hbefore hlook), hlooked⟩
  · refine hgiven _ hdone ⟨o, ?_, _, hheld⟩ ?_
    · rw [movesOf_append, movesOf_append]
      exact List.mem_append_left _ (List.mem_append_left _ ho)
    · have hanswered : ∀ m ∈ movesOf false (oneStep.1 ++ overtaken.1 ++ resumed.1),
          (m.site.call (.releaseLease (leaseKey narrowNode) "a")).1.isOk = true := by
        decide +kernel
      exact fun m hm _ => hanswered m hm

end Overtaken

end GeoReplication
