import GeoReplication.Proofs.Lease.Exclusion
import GeoReplication.Proofs.Program.Follows
import GeoReplication.Proofs.Program.Looks

/-!
# Proofs/Lease/Moments — what a move does to leases

In a history a request is an operation of the store that one of the moves carried out, and a fault
may have failed it (`Moment.settled`).  A program that minds leases under one name only
(`Effect.LeasesAs`) gives a lease to nobody else (`Moment.not_held_after`) and takes from another
only what has expired (`Moment.kept_or_taken`).
-/

namespace GeoReplication

open Time Store

/-- The operation of the store by which a request is made. -/
def LeaseRequest.call (key holder : String) : LeaseRequest → Call
  | obtain ttl => .obtainLease key holder ttl
  | renew ttl => .renewLease key holder ttl
  | release => .releaseLease key holder

namespace Moment

variable {m : Moment} {key holder : String} {r : LeaseRequest}

/-- A holder makes a request of a lease, and it is granted. -/
def Granted (key holder : String) (r : LeaseRequest) (m : Moment) : Prop :=
  m.effect = .store (r.call key holder) ∧ ((r.program key holder).run m.site).1 = .ok true

instance (m : Moment) (key holder : String) (r : LeaseRequest) :
    Decidable (m.Granted key holder r) :=
  match m with
  | ⟨s, .store c⟩ =>
    decidable_of_iff (c = r.call key holder ∧ ((r.program key holder).run s).1 = .ok true)
      (and_congr_left fun _ => ⟨congrArg _, fun h => by cases h; rfl⟩)
  | ⟨_, .clock⟩ => .isFalse fun h => nomatch h.1
  | ⟨_, .uptime⟩ => .isFalse fun h => nomatch h.1
  | ⟨_, .fetch _ _ _⟩ => .isFalse fun h => nomatch h.1
  | ⟨_, .queue _ _⟩ => .isFalse fun h => nomatch h.1
  | ⟨_, .dropJobs _ _ _⟩ => .isFalse fun h => nomatch h.1
  | ⟨_, .lease _⟩ => .isFalse fun h => nomatch h.1

/-- The site is as the program of the request leaves it. -/
theorem after_of_call (h : m.effect = .store (r.call key holder)) :
    m.after = ((r.program key holder).run m.site).2 := by
  obtain ⟨s, e⟩ := m
  obtain rfl : e = _ := h
  cases r <;> exact (congrArg Prod.snd (Program.run_call _ s)).symm

/-- **What a request comes to**: it changes nothing, or it is granted and the row of its lease is
what was asked for. -/
theorem settled (h : m.effect = .store (r.call key holder)) :
    (¬ m.Granted key holder r ∧ m.after.store = m.site.store) ∨
      m.Granted key holder r ∧ r.Allowed m.site.now key holder m.site.store ∧
        ∀ key', m.after.store.leases.get? key' =
          if key' = key then (r.until? m.site.now).map fun t => ⟨holder, t.stored⟩
          else m.site.store.leases.get? key' := by
  have hrun := LeaseRequest.run_program key holder r m.site
  rw [Granted, after_of_call h, hrun]
  split
  · exact .inl ⟨by rintro ⟨-, ⟨⟩⟩, rfl⟩
  · rcases r.settled m.site.now m.site.now key holder m.site.store with
      ⟨hrefused, hsame⟩ | ⟨hdone, hallowed, hrows⟩
    · exact .inl ⟨fun hgranted => hrefused hgranted.2, hsame⟩
    · exact .inr ⟨⟨h, hdone⟩, hallowed, hrows⟩

/-- A lease that was obtained or renewed is held. -/
theorem Granted.holds (h : m.Granted key holder r) (hr : r ≠ .release) :
    m.after.store.holdsLease key holder = true := by
  rcases settled h.1 with ⟨hnot, -⟩ | ⟨-, -, hrows⟩
  · exact absurd h hnot
  · refine holdsLease_iff.mpr ?_
    rw [hrows, if_pos rfl]
    cases r with
    | obtain ttl => exact ⟨_, rfl, rfl⟩
    | renew ttl => exact ⟨_, rfl, rfl⟩
    | release => exact absurd rfl hr

/-- Only one who holds a lease can renew it. -/
theorem Granted.held {ttl : Nat} (h : m.Granted key holder (.renew ttl)) :
    m.site.store.holdsLease key holder = true := by
  rcases settled h.1 with ⟨hnot, -⟩ | ⟨-, hallowed, -⟩
  · exact absurd h hnot
  · exact hallowed

/-- A release that is answered leaves nothing to be held. -/
theorem not_held_of_release (h : m.effect = .store (.releaseLease key holder))
    (hok : (m.site.call (.releaseLease key holder)).1.isOk = true) :
    m.after.store.holdsLease key holder ≠ true := by
  intro hheld
  rcases settled (r := .release) h with ⟨hnot, hsame⟩ | ⟨-, -, hrows⟩
  · rw [hsame] at hheld
    refine hnot ⟨h, ?_⟩
    obtain ⟨reply, hreply⟩ := Site.reply_of_isOk hok
    have hrun := Site.run_of_call_ok hreply
    have hprogram := congrArg Prod.fst (Program.run_call (.releaseLease key holder) m.site)
    refine hprogram.trans (hreply.trans ?_)
    have hanswer := congrArg Prod.fst hrun
    change (Call.lift (Store.releaseLease key holder) m.site.store).1 = .ok reply at hanswer
    rw [Store.releaseLease, LeaseRequest.lift_statement, if_pos hheld] at hanswer
    exact congrArg _ (Except.ok.inj hanswer).symm
  · obtain ⟨row, hrow, -⟩ := holdsLease_iff.mp hheld
    rw [hrows, if_pos rfl] at hrow
    cases hrow

end Moment

/-! ## Programs that mind leases under one name -/

/-- What the effect does with leases is done under this name, and other effects change none. -/
def Effect.LeasesAs (holder : String) : Effect → Prop
  | .store c => (∃ key, ∃ r : LeaseRequest, c = r.call key holder) ∨ c.writes = []
  | .fetch _ _ _ => False
  | .lease _ => False
  | _ => True

namespace Moment

variable {m : Moment} {key holder holder' : String}

/-- The leases are what they were, or a request of the holder was granted. -/
theorem leases_cases (hm : m.effect.LeasesAs holder) :
    m.after.store.leases = m.site.store.leases ∨ ∃ key, ∃ r : LeaseRequest,
      m.effect = .store (r.call key holder) ∧ r.Allowed m.site.now key holder m.site.store ∧
        ∀ key', m.after.store.leases.get? key' =
          if key' = key then (r.until? m.site.now).map fun t => ⟨holder, t.stored⟩
          else m.site.store.leases.get? key' := by
  obtain ⟨s, e⟩ := m
  cases e with
  | store c =>
    rcases hm with ⟨key, r, rfl⟩ | hc
    · rcases settled (m := ⟨s, .store (r.call key holder)⟩) rfl with
        ⟨-, hsame⟩ | ⟨-, hallowed, hrows⟩
      · exact .inl (congrArg (·.leases) hsame)
      · exact .inr ⟨key, r, rfl, hallowed, hrows⟩
    · exact .inl (congrArg Store.leases (s.store_call_of_writes_nil hc))
  | fetch primaryUrl p part => exact hm.elim
  | lease c => exact hm.elim
  | _ => exact .inl rfl

/-- The clock stands still. -/
theorem now_after (hm : m.effect.LeasesAs holder) : m.after.now = m.site.now := by
  obtain ⟨s, e⟩ := m
  cases e with
  | store c => exact s.now_call c
  | fetch primaryUrl p part => exact hm.elim
  | lease c => exact hm.elim
  | _ => rfl

theorem uptime_after (hm : m.effect.LeasesAs holder) : m.after.uptime = m.site.uptime := by
  obtain ⟨s, e⟩ := m
  cases e with
  | store c => exact s.uptime_call c
  | fetch primaryUrl p part => exact hm.elim
  | lease c => exact hm.elim
  | _ => rfl

/-- **Nobody else is given a lease**, and its own holder is only if it asks to obtain it. -/
theorem not_held_after (hm : m.effect.LeasesAs holder')
    (hown : holder' = holder → ∀ ttl, m.effect ≠ .store (.obtainLease key holder ttl))
    (hnot : m.site.store.holdsLease key holder ≠ true) :
    m.after.store.holdsLease key holder ≠ true := by
  intro hheld
  obtain ⟨row, hrow, hholder⟩ := holdsLease_iff.mp hheld
  rcases leases_cases hm with hsame | ⟨key', r, heffect, hallowed, hrows⟩
  · rw [hsame] at hrow
    exact hnot (holdsLease_iff.mpr ⟨row, hrow, hholder⟩)
  · rw [hrows] at hrow
    split at hrow
    · next hkey =>
      obtain ⟨until', huntil, rfl⟩ := Option.map_eq_some_iff.mp hrow
      obtain rfl : holder' = holder := hholder
      subst hkey
      cases r with
      | obtain ttl => exact hown rfl ttl heffect
      | renew ttl => exact hnot hallowed
      | release => cases huntil
    · exact hnot (holdsLease_iff.mpr ⟨row, hrow, hholder⟩)

/-- **A lease of another** stays what it is, unless it is obtained because it has expired. -/
theorem kept_or_taken (hm : m.effect.LeasesAs holder) {row : LeaseRow}
    (hrow : m.site.store.leases.get? key = some row) (hother : row.holder ≠ holder) :
    m.after.store.leases.get? key = some row ∨
      (∃ ttl, m.effect = .store (.obtainLease key holder ttl)) ∧
        row.expiresAt ≤ m.site.now.stored := by
  rcases leases_cases hm with hsame | ⟨key', r, heffect, hallowed, hrows⟩
  · rw [hsame]
    exact .inl hrow
  · rw [hrows]
    split
    · next hkey =>
      subst hkey
      have hnot : m.site.store.holdsLease key holder ≠ true := fun hheld => by
        obtain ⟨row', hrow', hsame⟩ := holdsLease_iff.mp hheld
        exact hother (Option.some.inj (hrow.symm.trans hrow') ▸ hsame)
      cases r with
      | obtain ttl => exact .inr ⟨⟨ttl, heffect⟩, hallowed row hrow⟩
      | renew ttl => exact absurd hallowed hnot
      | release => exact absurd hallowed hnot
    · exact .inl hrow

end Moment

end GeoReplication
