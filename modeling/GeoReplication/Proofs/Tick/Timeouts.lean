import GeoReplication.Proofs.Program.Sober
import GeoReplication.Proofs.Tick.Overlap
import GeoReplication.Proofs.Tick.Unhindered

/-!
# Proofs/Tick/Timeouts — how long a lease and a run may be set to last

    clock + lease timeout      … year 9999 │ +10000 … year 262142 │ …
                                 lasts     │ expires at once      │ overflow
    uptime + longest run       … 2⁶³ − 1 s │ overflow

The settings are accepted whatever the timeouts are.  A lease timeout is added to the time of day
and the end kept as text, which is in order up to year 9999 only; the longest time of a run is added
to a clock of its own.  Within the limits ticks never overflow (`Scheduler.sober_tick`) and leases
last (`Moment.Lasting`); beyond each of them a tick at the last time goes wrong.  So the limits are
those of safe settings: `Scheduler.isSafe_iff`.
-/

namespace GeoReplication

open Time Program

/-! ## Leases -/

/-- Leases that end as soon as they begin are not accepted. -/
theorem Config.leaseTimeoutMillis_pos {c : Config} (h : c.validate = .ok ()) :
    0 < c.leaseTimeoutMillis := by
  have hseconds : c.leaseTimeoutSeconds ≠ 0 := by
    rintro hzero
    rw [validate] at h
    split at h
    · cases h
    split at h <;> cases h
  exact Nat.mul_pos (Nat.pos_of_ne_zero hseconds) (by decide)

namespace Store

variable {now : Instant} {ttl : Nat}

/-- A lease that would last too long is refused. -/
theorem leaseEnd_of_long (h : maxLeaseMillis < ttl) :
    leaseEnd now ttl = .error (.error (.config ("lease ttl out of range: " ++ secondsText ttl))) :=
  if_pos h

/-- A lease that ends in a year of four digits can be reckoned. -/
theorem leaseEnd_of_isSortable (h : ttl ≤ maxLeaseMillis)
    (hend : (now.addMillis ttl).IsSortable) :
    leaseEnd now ttl = .ok (now.addMillis ttl).stored := by
  rw [leaseEnd, if_neg (Nat.not_lt.mpr h), Instant.addMillis?, if_pos hend.second_le]

theorem eq_overflow_of_leaseEnd_error {f : Failure} (h : ttl ≤ maxLeaseMillis)
    (hend : leaseEnd now ttl = .error f) : f = .overflow .instant := by
  rw [leaseEnd, if_neg (Nat.not_lt.mpr h)] at hend
  split at hend
  · cases hend
  · exact (Except.error.inj hend).symm

end Store

namespace Call

variable {α : Type} {now : Instant} {ttl : Nat} {a : String → Action α} {s : Store}

theorem withLeaseEnd_ne_overflow (h : ∀ o, Store.leaseEnd now ttl ≠ .error (.overflow o))
    (o : Overflow) : (withLeaseEnd now ttl a s).1 ≠ .error (.overflow o) := by
  rw [withLeaseEnd]
  split
  · exact lift_ne_overflow _ _ _
  · next f hf =>
    rintro ⟨⟩
    exact h o hf

theorem le_maxLeaseMillis_of_ok {r : α} (h : (withLeaseEnd now ttl a s).1 = .ok r) :
    ttl ≤ Store.maxLeaseMillis := by
  refine Nat.not_lt.mp fun hlong => ?_
  rw [withLeaseEnd, Store.leaseEnd_of_long hlong] at h
  cases h

end Call

/-- A lease that is free or has expired is obtained, if its end can be reckoned. -/
theorem LeaseRequest.run_obtain_of_allowed {begun now : Instant} {key holder text : String}
    {ttl : Nat} {s : Store} (hend : Store.leaseEnd begun ttl = .ok text)
    (h : (obtain ttl).Allowed now key holder s) :
    ((obtain ttl).run begun now key holder s).1 = .ok true := by
  rw [run, Call.withLeaseEnd, hend]
  dsimp only
  rw [Store.obtainLease, lift_statement]
  cases hrow : s.leases.get? key with
  | none => rfl
  | some row =>
    dsimp only
    rw [if_pos (h row hrow)]

/-! ## Ticks are sober -/

namespace Source

variable {C : Instant → Nat → Prop} {ask : Int → Program Bool}
  (hask : ∀ id, Sober C (fun _ => True) (ask id))

include hask

theorem sober_turnFrom : ∀ (ids : List Int) (s : Source) (p : Picked),
    Sober C (fun _ => True) (turnFrom ask s p ids)
  | [], _, _ => .pure trivial
  | id :: rest, s, p => (hask id).bind fun inFlight _ => by
      have hskip := sober_turnFrom rest (s.pop id rest) p
      split
      · exact hskip
      split
      · exact hskip
      · exact .pure trivial

theorem sober_round (capacity : Nat) : ∀ (ss : List Source) (p : Picked),
    Sober C (fun _ => True) (round ask capacity ss p)
  | [], _ => .pure trivial
  | s :: ss, p => by
      rw [round]
      split
      · exact .pure trivial
      refine (sober_turnFrom hask s.buffer s p).bind fun r _ => ?_
      exact (sober_round capacity ss r.2).bind fun _ _ => .pure trivial

theorem sober_rounds (capacity : Nat) : ∀ (count : Nat) (ss : List Source) (p : Picked),
    Sober C (fun _ => True) (rounds ask capacity count ss p)
  | 0, _, _ => .pure trivial
  | count + 1, ss, p => by
      rw [rounds]
      split
      · exact (sober_round hask capacity ss p).bind fun r _ => sober_rounds capacity count r.1 r.2
      · exact .pure trivial

end Source

namespace Scheduler

open Program Moment

variable {sched : Scheduler} {n : Node} {holder : String} {C : Instant → Nat → Prop}

/-- A page that cannot be looked up ends its source, so the tick goes on. -/
theorem sober_refillAll (f : CandidateFilter) : ∀ ss : List Source,
    Sober C (fun _ => True) (sched.refillAll f ss)
  | [] => .pure trivial
  | src :: ss => by
      have hrefill : Sober C (fun _ => True) (sched.refill f src) := by
        rw [refill]
        split
        · exact (Sober.look rfl).attempt.bind fun r _ => by cases r <;> exact .pure trivial
        · exact .pure trivial
      exact hrefill.bind fun _ _ => (sober_refillAll f ss).bind fun _ _ => .pure trivial

theorem sober_dispatch : ∀ ids : List Int, Sober C (fun _ => True) (sched.dispatch n ids)
  | [] => .pure trivial
  | _ :: ids => Sober.clock.bind fun _ _ => (Sober.queue _ _).bind fun _ _ =>
      (sober_dispatch ids).bind fun _ _ => .pure trivial

theorem sober_fill (capacity : Nat) (p : Progress) :
    Sober C (fun _ => True) (sched.fill n capacity p) :=
  (Source.sober_rounds (fun id => Sober.queue sched.queue (.isScheduled id)) capacity _ p.sources
    _).bind fun _ _ => (sober_dispatch _).bind fun _ _ => .pure trivial

theorem sober_obstacle : Sober C (fun _ => True) (sched.obstacle n) := by
  rw [obstacle]
  split
  · exact .pure trivial
  split
  · exact .pure trivial
  split
  · exact .pure trivial
  · exact (Sober.look rfl).bind fun _ _ => by split <;> exact .pure trivial

section Leases

variable (hl : sched.lease = .stored holder)
  (hend : ∀ now u, C now u →
    ∀ o, Store.leaseEnd now sched.config.leaseTimeoutMillis ≠ .error (.overflow o))

include hl hend

theorem sober_keepsLease : Sober C (fun _ => True) (sched.keepsLease n) := by
  have hrenew : Sober C (fun _ => True)
      (sched.lease.renew (leaseKey n) sched.config.leaseTimeoutMillis) := by
    rw [hl]
    exact Sober.call (c := .renewLease _ holder _) (fun _ _ _ _ => trivial) fun s hs =>
      Call.withLeaseEnd_ne_overflow (hend _ _ hs)
  exact hrenew.attempt.bind fun r _ => by cases r <;> exact .pure trivial

theorem sober_steps (deadline : Nat) : ∀ (count : Nat) (p : Progress),
    Sober C (fun _ => True) (sched.steps n deadline count p)
  | 0, _ => .pure trivial
  | count + 1, p => Sober.uptime.bind fun now _ => by
      split
      · exact .pure trivial
      refine (sober_keepsLease hl hend).bind fun held _ => ?_
      split
      · exact .pure trivial
      have hroom : Sober C (fun _ => True) (sched.room n) :=
        (Sober.queue _ _).bind fun _ _ => .pure trivial
      refine hroom.bind fun capacity _ => ?_
      split
      · exact .pure trivial
      refine (sober_refillAll _ p.sources).bind fun ss _ => ?_
      split
      · exact .pure trivial
      exact (sober_fill capacity _).bind fun p _ => sober_steps deadline count p

/-- **A tick is sober** if the end of its lease can be reckoned, and the deadline too in case it
gets the lease. -/
theorem sober_tick
    (hdeadline : sched.config.leaseTimeoutMillis ≤ Store.maxLeaseMillis → ∀ now u, C now u →
      u / 1000 + sched.config.maxRunTimeSeconds ≤ maxUptimeSeconds)
    (r : Rotation) (limit : Nat) : Sober C (fun _ => True) (sched.tick n r limit) := by
  refine sober_obstacle.bind fun obstacle _ => ?_
  cases obstacle with
  | some reason => exact .pure trivial
  | none =>
    have hobtain : Sober C (fun _ => sched.config.leaseTimeoutMillis ≤ Store.maxLeaseMillis)
        (sched.lease.obtain (leaseKey n) sched.config.leaseTimeoutMillis) := by
      rw [hl]
      refine Sober.call (c := .obtainLease _ holder _) (fun s _ held hheld => ?_) fun s hs =>
        Call.withLeaseEnd_ne_overflow (hend _ _ hs)
      exact Call.le_maxLeaseMillis_of_ok (congrArg Prod.fst (Site.run_of_call_ok hheld))
    refine hobtain.bind fun held hlong => ?_
    split
    · exact .pure trivial
    have hschedule : Sober C (fun _ => True) (sched.schedule n r limit) := by
      refine Sober.uptime.bind ?_
      rintro u ⟨now, hu⟩
      rw [if_neg (Nat.not_lt.mpr (hdeadline hlong now u hu))]
      split
      · exact .pure trivial
      exact (sober_steps hl hend _ limit _).bind fun _ _ => .pure trivial
    have hcancel : Sober C (fun _ => True) (sched.lease.cancel (leaseKey n)) := by
      rw [hl]
      exact Sober.bind (p := fun _ => True) (.call (fun _ _ _ _ => trivial) fun s _ =>
        Call.lift_ne_overflow _ _) fun _ _ => .pure trivial
    exact hschedule.bind fun _ _ => hcancel.attempt.bind fun _ _ => .pure trivial

end Leases

end Scheduler

/-! ## Leases last -/

/-- The request asks for a lease of this length, if it asks for one. -/
def LeaseRequest.Lasts (ttl : Nat) : LeaseRequest → Prop
  | obtain ttl' => ttl' = ttl
  | renew ttl' => ttl' = ttl
  | release => True

theorem LeaseRequest.Lasts.until?_eq {ttl : Nat} {r : LeaseRequest} (h : r.Lasts ttl)
    (hr : r ≠ .release) (now : Instant) : r.until? now = some (now.addMillis ttl) := by
  cases r with
  | obtain ttl' => exact congrArg _ (congrArg _ h)
  | renew ttl' => exact congrArg _ (congrArg _ h)
  | release => exact absurd rfl hr

/-- What the effect does with leases is done under one name, and `key` is asked for a time. -/
structure Effect.LeasesFor (key holder : String) (ttl : Nat) (e : Effect) : Prop where
  named : e.LeasesAs holder
  lasts (r : LeaseRequest) : e = .store (r.call key holder) → r.Lasts ttl

/-- What the clocks may show: times from year 0 on and up to `latest`, without leap seconds. -/
structure UpTo (latest : Instant) (lastUptime : Nat) (now : Instant) (uptime : Nat) : Prop where
  plain : now.IsPlain
  year : 0 ≤ now.date.year
  le : now ≤ latest
  uptime : uptime ≤ lastUptime

/-- Time goes on, and others change a lease only as they are allowed to. -/
structure Site.Contended (C : Instant → Nat → Prop) (key holder : String) (s s' : Site) : Prop where
  clocks : C s'.now s'.uptime
  later : s.now ≤ s'.now
  lease : s'.store.leases.get? key = s.store.leases.get? key ∨
    ∃ other, other ≠ holder ∧ ∃ r : LeaseRequest, r.Allowed s'.now key other s.store

namespace Moment

variable {key holder : String} {ttl : Nat} {h : List Moment} {s s' : Site} {e : Effect}
  {latest : Instant} {lastUptime : Nat}

/-- A lease that was granted and has neither been released nor expired is the row of the store. -/
def Lasting (key holder : String) (ttl : Nat) (h : List Moment) (s : Site) : Prop :=
  ∀ before m after (r : LeaseRequest), h = before ++ m :: after → r ≠ .release →
    m.Granted key holder r → (∀ m' ∈ after, ¬ m'.Granted key holder .release) →
    s.now.toMicros < (m.site.now.addMillis ttl).toMicros →
    ∃ e : Instant, e.IsSortable ∧ m.site.now.addMillis ttl ≤ e ∧
      s.store.leases.get? key = some ⟨holder, e.stored⟩

/-- What others do to a lease that has not expired: nothing. -/
theorem Lasting.others (hl : Lasting key holder ttl h s)
    (ho : Site.Contended (UpTo latest lastUptime) key holder s s') :
    Lasting key holder ttl h s' := by
  intro before m after r hsplit hr hgranted hkept hbefore
  obtain ⟨e, he, hle, hrow⟩ := hl before m after r hsplit hr hgranted hkept
    (Instant.toMicros_lt_of_le_of_lt ho.later hbefore)
  refine ⟨e, he, hle, ?_⟩
  rcases ho.lease with hsame | ⟨other, hother, r', hallowed⟩
  · rw [hsame, hrow]
  · exact absurd hallowed (LeaseRequest.not_allowed ho.clocks.plain.isProper he
      (Instant.toMicros_lt_of_lt_of_le hbefore hle) hrow hother)

/-- No lease is granted that would last too long. -/
theorem Granted.le_maxLeaseMillis {m : Moment} {r : LeaseRequest} (hm : m.Granted key holder r)
    (hr : r ≠ .release) (hlasts : r.Lasts ttl) : ttl ≤ Store.maxLeaseMillis := by
  have hrun := hm.2
  rw [LeaseRequest.run_program] at hrun
  split at hrun
  · cases hrun
  · cases r with
    | obtain ttl' =>
      obtain rfl := hlasts
      exact Call.le_maxLeaseMillis_of_ok hrun
    | renew ttl' =>
      obtain rfl := hlasts
      exact Call.le_maxLeaseMillis_of_ok hrun
    | release => exact absurd rfl hr

/-- The row of a lease stays what it is, or a request of it is granted. -/
theorem row_cases {m : Moment} (hm : m.effect.LeasesAs holder) (key : String) :
    m.after.store.leases.get? key = m.site.store.leases.get? key ∨
      ∃ r : LeaseRequest, m.Granted key holder r := by
  by_cases hasked : ∃ r : LeaseRequest, m.effect = .store (r.call key holder)
  · obtain ⟨r, hr⟩ := hasked
    rcases settled hr with ⟨-, hsame⟩ | ⟨hgranted, -⟩
    · exact .inl (congrArg (·.leases.get? key) hsame)
    · exact .inr ⟨r, hgranted⟩
  · rcases leases_cases hm with hsame | ⟨key', r, hr, -, hrows⟩
    · exact .inl (congrArg (·.get? key) hsame)
    · have hkey : key ≠ key' := by
        rintro rfl
        exact hasked ⟨r, hr⟩
      exact .inl ((hrows key).trans (if_neg hkey))

/-- What the holder does itself: it asks anew, and for no less, or gives the lease back. -/
theorem Lasting.own (hl : Lasting key holder ttl h s) (he : e.LeasesFor key holder ttl)
    (hend : ttl ≤ Store.maxLeaseMillis → (s.now.addMillis ttl).IsSortable)
    (hpast : ∀ m ∈ h, m.site.now.IsPlain ∧ m.site.now ≤ s.now) :
    Lasting key holder ttl (h ++ [⟨s, e⟩]) (Moment.after ⟨s, e⟩) := by
  intro before m after r hsplit hr hgranted hkept hbefore
  rw [Moment.now_after (m := ⟨s, e⟩) he.named] at hbefore
  -- a request that is granted leaves the row that it asks for
  have hnew : ∀ r' : LeaseRequest, r' ≠ .release → Granted key holder r' ⟨s, e⟩ →
      (s.now.addMillis ttl).IsSortable ∧ (Moment.after ⟨s, e⟩).store.leases.get? key =
        some ⟨holder, (s.now.addMillis ttl).stored⟩ := fun r' hr' hgranted' => by
    have hlasts := he.lasts r' hgranted'.1
    refine ⟨hend (hgranted'.le_maxLeaseMillis hr' hlasts), ?_⟩
    rcases settled hgranted'.1 with ⟨hnot, -⟩ | ⟨-, -, hrows⟩
    · exact absurd hgranted' hnot
    · rw [hrows, if_pos rfl, hlasts.until?_eq hr']
      rfl
  rcases List.eq_nil_or_concat after with rfl | ⟨after, last, rfl⟩
  · obtain ⟨rfl, hlast⟩ := List.append_inj' hsplit rfl
    obtain rfl := (List.singleton_inj.mp hlast).symm
    obtain ⟨hsortable, hrow⟩ := hnew r hr hgranted
    exact ⟨_, hsortable, Instant.le_refl _, hrow⟩
  · rw [List.concat_eq_append, ← List.cons_append, ← List.append_assoc] at hsplit
    obtain ⟨rfl, hlast⟩ := List.append_inj' hsplit rfl
    obtain rfl := (List.singleton_inj.mp hlast).symm
    rw [List.concat_eq_append] at hkept
    rcases row_cases (m := ⟨s, e⟩) he.named key with hsame | ⟨r', hgranted'⟩
    · rw [hsame]
      exact hl before m after r rfl hr hgranted
        (fun m' hm' => hkept m' (List.mem_append_left _ hm')) hbefore
    · obtain ⟨hplain, hpast⟩ := hpast m (by simp)
      have hr' : r' ≠ .release := by
        rintro rfl
        exact hkept _ (List.mem_append_right _ List.mem_cons_self) hgranted'
      obtain ⟨hsortable, hrow⟩ := hnew r' hr' hgranted'
      exact ⟨_, hsortable, Instant.addMillis_mono hplain hpast ttl, hrow⟩

end Moment

/-! ## Safe timeouts -/

namespace Scheduler

open Moment

variable {sched : Scheduler} {n : Node} {holder : String} {latest : Instant} {lastUptime : Nat}

/-- **Ticks are safe** while the clocks show times up to `latest` and `lastUptime`: none overflows,
and a lease that one is granted cannot be obtained by another holder before its time is over, to the
microsecond, unless it has been released. -/
structure IsSafe (sched : Scheduler) (n : Node) (holder : String) (latest : Instant)
    (lastUptime : Nat) : Prop where
  sober {r : Rotation} {limit : Nat} {s s' : Site} {h : List Moment} {o : Overflow} :
    UpTo latest lastUptime s.now s.uptime →
    ¬ (sched.tick n r limit).Reaches (Site.Contended (UpTo latest lastUptime) (leaseKey n) holder) s
      h (failed (.overflow o)) s'
  lasting {r : Rotation} {limit : Nat} {s s' : Site} {t : Program (TickReport × Rotation)}
    {before after : List Moment} {m : Moment} {request : LeaseRequest} {other : String}
    {ttl : Nat} :
    UpTo latest lastUptime s.now s.uptime →
    (sched.tick n r limit).Reaches (Site.Contended (UpTo latest lastUptime) (leaseKey n) holder) s
      (before ++ m :: after) t s' →
    request ≠ .release → m.Granted (leaseKey n) holder request →
    (∀ m' ∈ after, ¬ m'.Granted (leaseKey n) holder .release) →
    s'.now.toMicros < (m.site.now.addMillis sched.config.leaseTimeoutMillis).toMicros →
    other ≠ holder →
    (((LeaseRequest.obtain ttl).program (leaseKey n) other).run s').1 ≠ .ok true

theorem every_tick_leasesFor (hl : sched.lease = .stored holder) (r : Rotation) (limit : Nat) :
    (sched.tick n r limit).Every
      (Effect.LeasesFor (leaseKey n) holder sched.config.leaseTimeoutMillis) fun _ => True :=
  every_tick ⟨.inr rfl, by rintro (_ | _ | _) ⟨⟩⟩
    { lookUp := fun _ _ _ => ⟨.inr rfl, by rintro (_ | _ | _) ⟨⟩⟩
      clock := ⟨trivial, by rintro _ ⟨⟩⟩
      uptime := ⟨trivial, by rintro _ ⟨⟩⟩
      inFlight := ⟨trivial, by rintro _ ⟨⟩⟩
      isScheduled := fun _ => ⟨trivial, by rintro _ ⟨⟩⟩
      push := fun _ => ⟨trivial, by rintro _ ⟨⟩⟩
      lease := hl ▸ Lease.does_stored
        ⟨.inl ⟨_, .obtain _, rfl⟩, by rintro (_ | _ | _) ⟨⟩; rfl⟩
        ⟨.inl ⟨_, .renew _, rfl⟩, by rintro (_ | _ | _) ⟨⟩; rfl⟩
        ⟨.inl ⟨_, .release, rfl⟩, by rintro (_ | _ | _) ⟨⟩; trivial⟩ } r limit

/-! ### Within the limits -/

section Limits

variable {now : Instant} {u : Nat}
  (hlimit : sched.config.leaseTimeoutMillis ≤ Store.maxLeaseMillis →
    (latest.addMillis sched.config.leaseTimeoutMillis).IsSortable ∧
      lastUptime / 1000 + sched.config.maxRunTimeSeconds ≤ maxUptimeSeconds)

include hlimit

/-- A lease that is not refused ends in a year of four digits. -/
theorem isSortable_leaseEnd (hclocks : UpTo latest lastUptime now u)
    (hlong : sched.config.leaseTimeoutMillis ≤ Store.maxLeaseMillis) :
    (now.addMillis sched.config.leaseTimeoutMillis).IsSortable :=
  (hlimit hlong).1.of_le (Instant.isPlain_addMillis _ _).isProper
    (Int.le_trans hclocks.year (Instant.year_mono (Instant.le_addMillis hclocks.plain _)))
    (Instant.addMillis_mono hclocks.plain hclocks.le _)

theorem sober_tick_upTo (hl : sched.lease = .stored holder) (r : Rotation) (limit : Nat) :
    Sober (UpTo latest lastUptime) (fun _ => True) (sched.tick n r limit) := by
  refine sober_tick hl (fun now u hclocks o => ?_) (fun hlong now u hclocks => ?_) r limit
  · rcases Nat.lt_or_ge Store.maxLeaseMillis sched.config.leaseTimeoutMillis with hshort | hlong
    · rw [Store.leaseEnd_of_long hshort]
      rintro ⟨⟩
    · rw [Store.leaseEnd_of_isSortable hlong (isSortable_leaseEnd hlimit hclocks hlong)]
      rintro ⟨⟩
  · have hdiv := Nat.div_le_div_right (c := 1000) hclocks.uptime
    exact Nat.le_trans (Nat.add_le_add_right hdiv _) (hlimit hlong).2

/-- At every moment of a tick its lease lasts. -/
theorem lasting_of_reaches (hl : sched.lease = .stored holder) {r : Rotation} {limit : Nat}
    {s s' : Site} {t : Program (TickReport × Rotation)} {h : List Moment}
    (hs : UpTo latest lastUptime s.now s.uptime)
    (hr : (sched.tick n r limit).Reaches
      (Site.Contended (UpTo latest lastUptime) (leaseKey n) holder) s h t s') :
    UpTo latest lastUptime s'.now s'.uptime ∧
      Lasting (leaseKey n) holder sched.config.leaseTimeoutMillis h s' := by
  let P (h : List Moment) (s : Site) : Prop := UpTo latest lastUptime s.now s.uptime ∧
    (∀ m ∈ h, m.site.now.IsPlain ∧ m.site.now ≤ s.now) ∧
    Lasting (leaseKey n) holder sched.config.leaseTimeoutMillis h s
  have h0 : P [] s := ⟨hs, fun m hm => absurd hm List.not_mem_nil, fun before m after r hsplit =>
    absurd hsplit (by simp)⟩
  have hothers : ∀ h s s', P h s →
      Site.Contended (UpTo latest lastUptime) (leaseKey n) holder s s' → P h s' :=
    fun h s s' ⟨_, hpast, hlasting⟩ ho => ⟨ho.clocks,
      fun m hm => ⟨(hpast m hm).1, Instant.le_trans (hpast m hm).2 ho.later⟩,
      hlasting.others ho⟩
  have hguards : (sched.tick n r limit).Guards
      (Site.Contended (UpTo latest lastUptime) (leaseKey n) holder) P
      (fun r h s => P h s ∧ ∀ a, r = .ok a → True) [] s :=
    (every_tick_leasesFor (n := n) hl r limit).guards (P := P) hothers
      (fun h s e he ⟨hclocks, hpast, hlasting⟩ => ?_) (fun _ _ => id) h0
  · obtain ⟨⟨hclocks, -, hlasting⟩, -⟩ := hr.guards hguards hothers h0
    exact ⟨hclocks, hlasting⟩
  · have hnow := now_after (m := ⟨s, e⟩) he.named
    have hpast' : ∀ m ∈ h ++ [⟨s, e⟩], m.site.now.IsPlain ∧ m.site.now ≤ s.now :=
      List.forall_mem_append.mpr ⟨hpast, by simpa using ⟨hclocks.plain, Instant.le_refl s.now⟩⟩
    refine ⟨?_, hnow.symm ▸ hpast', hlasting.own he (isSortable_leaseEnd hlimit hclocks) hpast⟩
    rw [hnow, uptime_after (m := ⟨s, e⟩) he.named]
    exact hclocks

/-- **Within the limits ticks are safe.** -/
theorem isSafe_of_limit (hl : sched.lease = .stored holder) :
    sched.IsSafe n holder latest lastUptime where
  sober {r limit s s' h o} hs hr := by
    obtain ⟨s₁, -, hend⟩ := (hr.mono fun _ _ ho => ho.clocks).secures (fun _ _ => trivial)
      (sober_tick_upTo hlimit hl r limit s hs)
    exact hend.sober o rfl
  lasting {r limit s s' t before after m request other ttl} hs hr hrequest hgranted hkept hbefore
      hother hobtained := by
    obtain ⟨hclocks, hlasting⟩ := lasting_of_reaches hlimit hl hs hr
    obtain ⟨e, he, hle, hrow⟩ := hlasting before m after request rfl hrequest hgranted hkept hbefore
    have hasked : Granted (leaseKey n) other (.obtain ttl)
        ⟨s', .store (.obtainLease (leaseKey n) other ttl)⟩ := ⟨rfl, hobtained⟩
    rcases settled hasked.1 with ⟨hnot, -⟩ | ⟨-, hallowed, -⟩
    · exact hnot hasked
    · exact LeaseRequest.not_allowed hclocks.plain.isProper he
        (Instant.toMicros_lt_of_lt_of_le hbefore hle) hrow hother hallowed

end Limits

/-! ### Beyond the limits -/

/-- A site whose clocks show the last of their times, with a primary and no lease. -/
def limitSite (latest : Instant) (lastUptime : Nat) : Site :=
  { Site.start latest
      { Store.empty with
        nodes := Store.Numbered.empty.insert
          ⟨⟨"http", "primary", 80, ""⟩, true, true, 25, 10, "", ""⟩ } [] with
    uptime := lastUptime }

/-- The site once a lease has been obtained there. -/
def leasedSite (n : Node) (holder : String) (latest : Instant) (lastUptime : Nat) (text : String) :
    Site :=
  let s := limitSite latest lastUptime
  { s with store := { s.store with leases := s.store.leases.insert (leaseKey n) ⟨holder, text⟩ } }

theorem run_obstacle_limitSite (hdb : sched.config.databaseConfigured = true)
    (hsecondary : n.isSecondary = true) (henabled : n.enabled = true) :
    (sched.obstacle n).run (limitSite latest lastUptime) =
      (.ok none, limitSite latest lastUptime) := by
  rw [obstacle_eq hdb hsecondary henabled]
  rfl

theorem call_obtainLease_limitSite (ttl : Nat) :
    (limitSite latest lastUptime).call (.obtainLease (leaseKey n) holder ttl) =
      match Store.leaseEnd latest ttl with
      | .ok text => (.ok true, leasedSite n holder latest lastUptime text)
      | .error f => (.error f, limitSite latest lastUptime) := by
  simp only [Site.call, limitSite, Site.start, Fault.ask_nil, Call.run, Call.withLeaseEnd]
  cases Store.leaseEnd latest ttl <;> rfl

theorem obtained_limitSite {ttl : Nat} {text : String}
    (hend : Store.leaseEnd latest ttl = .ok text) :
    (limitSite latest lastUptime).call (.obtainLease (leaseKey n) holder ttl) =
      (.ok true, leasedSite n holder latest lastUptime text) := by
  rw [call_obtainLease_limitSite, hend]

/-- A lease that ends in a year of more than four digits can be obtained by another at once. -/
theorem another_obtains {other : String} {e : Instant} (hlatest : latest.IsSortable)
    (hplain : latest.IsPlain) (he : ¬ (0 ≤ e.date.year ∧ e.date.year ≤ 9999)) :
    (((LeaseRequest.obtain 0).program (leaseKey n) other).run
      (leasedSite n holder latest lastUptime e.stored)).1 = .ok true := by
  have hend : Store.leaseEnd latest 0 = .ok (latest.addMillis 0).stored := by
    refine Store.leaseEnd_of_isSortable (Nat.zero_le _) ?_
    rwa [Instant.addMillis_zero hplain]
  have hover : e.stored ≤ latest.stored :=
    String.not_lt.mp (String.lt_asymm (Instant.stored_lt_of_sign hlatest he))
  have hallowed : (LeaseRequest.obtain 0).Allowed latest (leaseKey n) other
      (leasedSite n holder latest lastUptime e.stored).store := fun row hrow => by
    have hinserted : (Store.empty.leases.insert (leaseKey n) ⟨holder, e.stored⟩).get? (leaseKey n) =
        some ⟨holder, e.stored⟩ := (Store.Table.get?_insert _ _ _ _).trans (if_pos rfl)
    obtain rfl := Option.some.inj (hinserted.symm.trans hrow)
    exact hover
  rw [LeaseRequest.run_program]
  exact LeaseRequest.run_obtain_of_allowed hend hallowed

section Beyond

variable (hdb : sched.config.databaseConfigured = true) (hsecondary : n.isSecondary = true)
  (henabled : n.enabled = true) (hl : sched.lease = .stored holder)
  (r : Rotation) (limit : Nat)

include hdb hsecondary henabled hl

/-- The tick fails as the request of its lease does. -/
theorem run_tick_of_leaseEnd_error {f : Failure}
    (hend : Store.leaseEnd latest sched.config.leaseTimeoutMillis = .error f) :
    (sched.tick n r limit).run (limitSite latest lastUptime) =
      (.error f, limitSite latest lastUptime) := by
  rw [tick, run_bind_ok (run_obstacle_limitSite hdb hsecondary henabled)]
  dsimp only
  rw [run_bind, hl]
  have hobtain : ((Lease.stored holder).obtain (leaseKey n) sched.config.leaseTimeoutMillis).run
      (limitSite latest lastUptime) = (.error f, limitSite latest lastUptime) := by
    refine (run_call _ _).trans ?_
    rw [call_obtainLease_limitSite, hend]
  rw [hobtain]

/-- The tick has obtained its lease. -/
theorem reaches_leasedSite {others : Site → Site → Prop} {text : String}
    (hend : Store.leaseEnd latest sched.config.leaseTimeoutMillis = .ok text) :
    ∃ h t, (sched.tick n r limit).Reaches others (limitSite latest lastUptime)
      (h ++ [⟨limitSite latest lastUptime,
        .store (.obtainLease (leaseKey n) holder sched.config.leaseTimeoutMillis)⟩]) t
      (leasedSite n holder latest lastUptime text) := by
  have halone : (sched.obstacle n).run (limitSite latest lastUptime) =
      (.ok none, limitSite latest lastUptime) := run_obstacle_limitSite hdb hsecondary henabled
  obtain ⟨h, hobstacle, -⟩ : ∃ h, (sched.obstacle n).Reaches others (limitSite latest lastUptime) h
      (.done none) (limitSite latest lastUptime) ∧ ∀ m ∈ h, True :=
    reaches_alone (F := fun _ _ => True) (throughout_of fun _ _ => trivial) halone
  obtain ⟨config, storages, lease, queue⟩ := sched
  obtain rfl : lease = .stored holder := hl
  have hasked : (tick ⟨config, storages, .stored holder, queue⟩ n r limit).Reaches others
      (limitSite latest lastUptime) h
      (perform (.store (.obtainLease (leaseKey n) holder config.leaseTimeoutMillis)) _)
      (limitSite latest lastUptime) := hobstacle.bind _
  have hafter : Moment.after ⟨limitSite latest lastUptime, .store (.obtainLease (leaseKey n) holder
      config.leaseTimeoutMillis)⟩ = leasedSite n holder latest lastUptime text :=
    congrArg Prod.snd (obtained_limitSite hend)
  have hobtained := hasked.own
  rw [hafter] at hobtained
  exact ⟨h, _, hobtained⟩

/-- The tick cannot reckon its deadline. -/
theorem run_tick_of_late {text : String}
    (hend : Store.leaseEnd latest sched.config.leaseTimeoutMillis = .ok text)
    (hlate : maxUptimeSeconds < lastUptime / 1000 + sched.config.maxRunTimeSeconds) :
    ((sched.tick n r limit).run (limitSite latest lastUptime)).1 =
      .error (.overflow .deadline) := by
  have hobtain : ((Lease.stored holder).obtain (leaseKey n) sched.config.leaseTimeoutMillis).run
      (limitSite latest lastUptime) = (.ok true, leasedSite n holder latest lastUptime text) :=
    (run_call _ _).trans (obtained_limitSite hend)
  have hschedule : (sched.schedule n r limit).run (leasedSite n holder latest lastUptime text) =
      (.error (.overflow .deadline), leasedSite n holder latest lastUptime text) := by
    rw [schedule, run_bind_ok (run_uptime _)]
    exact congrFun (congrArg run (if_pos hlate)) _
  rw [tick, run_bind_ok (run_obstacle_limitSite hdb hsecondary henabled)]
  dsimp only
  rw [hl, run_bind_ok hobtain, if_neg (by decide), run_bind, hschedule]

/-- **Safe timeouts.**  With settings that are accepted, ticks of an enabled secondary are safe up
to a last time exactly if the lease timeout is so long that every request is refused, or if a lease
obtained at that time ends in a year of four digits and a run begun then has a deadline that the
clock can show. -/
theorem isSafe_iff (hvalid : sched.config.validate = .ok ()) (hsortable : latest.IsSortable)
    (hplain : latest.IsPlain) :
    sched.IsSafe n holder latest lastUptime ↔
      (sched.config.leaseTimeoutMillis ≤ Store.maxLeaseMillis →
        (latest.addMillis sched.config.leaseTimeoutMillis).IsSortable ∧
          lastUptime / 1000 + sched.config.maxRunTimeSeconds ≤ maxUptimeSeconds) := by
  refine ⟨fun hsafe hlong => ?_, fun hlimit => isSafe_of_limit hlimit hl⟩
  have hlast : UpTo latest lastUptime latest lastUptime :=
    ⟨hplain, hsortable.year_nonneg, Instant.le_refl latest, Nat.le_refl lastUptime⟩
  -- a tick that overflows alone is not safe
  have hnever : ∀ o s', (sched.tick n .empty 0).run (limitSite latest lastUptime) ≠
      (.error (.overflow o), s') := fun o s' hrun => by
    obtain ⟨h, hr, -⟩ :=
      reaches_alone (F := fun _ _ => True) (throughout_of fun _ _ => trivial) hrun
    exact hsafe.sober hlast hr
  cases hend : Store.leaseEnd latest sched.config.leaseTimeoutMillis with
  | error f =>
    obtain rfl := Store.eq_overflow_of_leaseEnd_error hlong hend
    exact absurd (run_tick_of_leaseEnd_error hdb hsecondary henabled hl .empty 0 hend)
      (hnever _ _)
  | ok text =>
    obtain rfl := LeaseRequest.leaseEnd_eq_ok hend
    refine ⟨Classical.not_not.mp fun hnot => ?_, Nat.not_lt.mp fun hlate => ?_⟩
    · -- the text of the end has a sign, and expires as soon as it is written
      have hyear : ¬ (0 ≤ (latest.addMillis sched.config.leaseTimeoutMillis).date.year ∧
          (latest.addMillis sched.config.leaseTimeoutMillis).date.year ≤ 9999) := fun hyear =>
        hnot ⟨(Instant.isPlain_addMillis _ _).isProper, hyear.1, hyear.2⟩
      obtain ⟨h, t, hr⟩ := reaches_leasedSite hdb hsecondary henabled hl .empty 0 hend
      have hgranted : Moment.Granted (leaseKey n) holder (.obtain sched.config.leaseTimeoutMillis)
          ⟨limitSite latest lastUptime,
            .store (.obtainLease (leaseKey n) holder sched.config.leaseTimeoutMillis)⟩ :=
        ⟨rfl, (congrArg Prod.fst (run_call _ _)).trans
          (congrArg Prod.fst (obtained_limitSite hend))⟩
      have hanother : (((LeaseRequest.obtain 0).program (leaseKey n) (holder ++ "'")).run
          (leasedSite n holder latest lastUptime
            (latest.addMillis sched.config.leaseTimeoutMillis).stored)).1 = .ok true :=
        another_obtains hsortable hplain hyear
      have hrequest : LeaseRequest.obtain sched.config.leaseTimeoutMillis ≠ .release := by
        rintro ⟨⟩
      refine hsafe.lasting hlast hr hrequest hgranted (fun m hm => absurd hm List.not_mem_nil) ?_ ?_
        hanother
      · refine Instant.toMicros_lt_addMillis hplain ?_
        exact Config.leaseTimeoutMillis_pos hvalid
      · intro hsame
        have hlength := congrArg String.length hsame
        simp at hlength
    · exact hnever _ _ (Prod.ext (run_tick_of_late hdb hsecondary henabled hl .empty 0 hend hlate)
        rfl)

end Beyond

/-! ### Settings that are accepted -/

/-- Looks for projects that were never copied, or failed, with these timeouts. -/
def patientScheduler (leaseTimeoutSeconds maxRunTimeSeconds : Nat) : Scheduler :=
  { plainScheduler with
    config := { plainScheduler.config with leaseTimeoutSeconds, maxRunTimeSeconds }
    lease := .stored "a" }

/-- With the timeouts of an hour that hold where nothing is said, ticks are safe until the end of
year 9000. -/
theorem isSafe_iff_standard :
    (patientScheduler 3600 3600).IsSafe narrowNode "a" ⟨221876927999, 999999999⟩ (10 ^ 15) :=
  (isSafe_iff (by decide) (by decide) (by decide) rfl (by decide) (by decide +kernel)
    (by decide)).mpr fun _ => ⟨by decide +kernel, by decide⟩

/-- The beginning of 2024. -/
def newYear : Instant := ⟨1704067200, 0⟩

/-- **Settings that are accepted and not safe**: the end of a lease overflows, or the deadline of a
run does, or a lease that has been obtained can be obtained by another at once. -/
theorem accepted_not_safe :
    ((patientScheduler (10 ^ 13) 3600).config.validate = .ok () ∧
      (((patientScheduler (10 ^ 13) 3600).tick narrowNode .empty 10).run (limitSite newYear 0)).1 =
        .error (.overflow .instant)) ∧
    ((patientScheduler 3600 (2 ^ 64 - 1)).config.validate = .ok () ∧
      (((patientScheduler 3600 (2 ^ 64 - 1)).tick narrowNode .empty 10).run
        (limitSite newYear 0)).1 = .error (.overflow .deadline)) ∧
    ((patientScheduler (3 * 10 ^ 11) 3600).config.validate = .ok () ∧
      let key := leaseKey narrowNode
      let ttl := (patientScheduler (3 * 10 ^ 11) 3600).config.leaseTimeoutMillis
      let obtained := ((Lease.stored "a").obtain key ttl).run (limitSite newYear 0)
      (obtained.1, (((Lease.stored "b").obtain key ttl).run obtained.2).1) =
        (.ok true, .ok true)) := by
  refine ⟨⟨by decide, ?_⟩, ⟨by decide, ?_⟩, by decide, by decide +kernel⟩
  · have hlease : (patientScheduler (10 ^ 13) 3600).lease = .stored "a" := rfl
    exact congrArg Prod.fst (run_tick_of_leaseEnd_error rfl rfl rfl hlease .empty 10
      (by decide +kernel))
  · have hlease : (patientScheduler 3600 (2 ^ 64 - 1)).lease = .stored "a" := rfl
    have hend : Store.leaseEnd newYear
        (patientScheduler 3600 (2 ^ 64 - 1)).config.leaseTimeoutMillis =
        .ok "2024-01-01T01:00:00.000000Z" := by decide +kernel
    exact run_tick_of_late rfl rfl rfl hlease .empty 10 hend (by decide)

end Scheduler

end GeoReplication
