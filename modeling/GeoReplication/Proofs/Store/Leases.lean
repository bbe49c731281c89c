import GeoReplication.Store.Call

/-!
# Proofs/Store/Leases — leases stand apart

Operations on leases change nothing else in the store.
-/

namespace GeoReplication

namespace Call

/-- The operation is one on leases. -/
def OnLeases : Call → Prop
  | obtainLease _ _ _ => True
  | renewLease _ _ _ => True
  | releaseLease _ _ => True
  | _ => False

/-- What is answered depends on the leases alone, and only leases are written. -/
def LeasesOnly {α : Type} (a : Store → Except Failure α × Store) : Prop :=
  ∀ s s' : Store, s'.leases = s.leases → (a s').1 = (a s).1 ∧
    ∃ leases, (a s).2 = { s with leases } ∧ (a s').2 = { s' with leases }

theorem leasesOnly_of_eq {α : Type} {a : Store → Except Failure α × Store}
    {g : Store.Table String LeaseRow → α × Store.Table String LeaseRow}
    (h : ∀ s, a s = (.ok (g s.leases).1, { s with leases := (g s.leases).2 })) :
    LeasesOnly a := fun s s' hsame => by
  rw [h, h, hsame]
  exact ⟨rfl, _, rfl, rfl⟩

theorem leasesOnly_withLeaseEnd {α : Type} {a : String → Action α}
    (ha : ∀ expiresAt, LeasesOnly (lift (a expiresAt))) (now : Time.Instant) (ttl : Nat) :
    LeasesOnly (withLeaseEnd now ttl a) := fun s s' h => by
  simp only [withLeaseEnd]
  split
  · exact ha _ s s' h
  · exact ⟨rfl, s.leases, rfl, by rw [← h]⟩

/-- **Operations on leases stand apart** from everything else in the store. -/
theorem OnLeases.leasesOnly {c : Call} (hc : c.OnLeases) (now : Time.Instant) :
    LeasesOnly (c.run now) := by
  cases c with
  | obtainLease key holder ttl =>
    refine leasesOnly_withLeaseEnd (fun expiresAt => leasesOnly_of_eq (g := fun leases =>
      (leases.get? key).elim (true, leases.insert key ⟨holder, expiresAt⟩) fun row =>
        if row.expiresAt ≤ now.stored then
          (true, leases.modify key fun _ => ⟨holder, expiresAt⟩)
        else (false, leases)) fun s => ?_) now ttl
    simp only [lift, Store.obtainLease, Action.run_statement]
    cases s.leases.get? key with
    | none => rfl
    | some row => by_cases hover : row.expiresAt ≤ now.stored <;> simp [hover]
  | renewLease key holder ttl =>
    refine leasesOnly_withLeaseEnd (fun expiresAt => leasesOnly_of_eq (g := fun leases =>
      if (leases.get? key).any fun row => row.holder == holder then
        (true, leases.modify key fun row => { row with expiresAt })
      else (false, leases)) fun s => ?_) now ttl
    by_cases hheld : s.holdsLease key holder = true
    · have hany : (s.leases.get? key).any (fun row => row.holder == holder) = true := hheld
      simp only [lift, Store.extendLease, Action.run_statement, if_pos hheld, if_pos hany]
    · have hany : ¬ (s.leases.get? key).any (fun row => row.holder == holder) = true := hheld
      simp only [lift, Store.extendLease, Action.run_statement, if_neg hheld, if_neg hany]
  | releaseLease key holder =>
    refine leasesOnly_of_eq (a := lift (Store.releaseLease key holder)) (g := fun leases =>
      if (leases.get? key).any fun row => row.holder == holder then (true, leases.erase key)
      else (false, leases)) fun s => ?_
    by_cases hheld : s.holdsLease key holder = true
    · have hany : (s.leases.get? key).any (fun row => row.holder == holder) = true := hheld
      simp only [lift, Store.releaseLease, Action.run_statement, if_pos hheld, if_pos hany]
    · have hany : ¬ (s.leases.get? key).any (fun row => row.holder == holder) = true := hheld
      simp only [lift, Store.releaseLease, Action.run_statement, if_neg hheld, if_neg hany]
  | _ => exact hc.elim

/-- Operations on leases change nothing else. -/
theorem OnLeases.leases {c : Call} (hc : c.OnLeases) (now : Time.Instant) (s : Store) :
    ∃ leases, (c.run now s).2 = { s with leases } := by
  obtain ⟨-, leases, hrun, -⟩ := hc.leasesOnly now s s rfl
  exact ⟨leases, hrun⟩

end Call

end GeoReplication
