import GeoReplication.Lease
import GeoReplication.Proofs.Logged
import GeoReplication.Proofs.Program.Run
import GeoReplication.Proofs.Site.Frame
import GeoReplication.Proofs.Time.StoredOrder
import Mathlib.Data.List.Induction

/-!
# Proofs/Lease/Exclusion — no lease is held twice

Holders obtain, renew and release leases in the store in any order, and the clock moves on.  What a
holder believes to hold is what it was last granted and has not released (`believed`); the store
knows one row for each lease.  The two are tied by `Backed`: a belief that has not expired is the
row.  A grant to another holder needs an expired row, and texts expire when times do
(`Instant.toMicros_le_of_stored_le`), so a grant never touches a belief that has not expired.
-/

namespace GeoReplication

open Time Store

theorem Store.holdsLease_iff {s : Store} {key holder : String} :
    s.holdsLease key holder = true ↔
      ∃ row, s.leases.get? key = some row ∧ row.holder = holder := by
  rw [Store.holdsLease, Option.any_eq_true]
  simp only [beq_iff_eq]

/-! ## Requests -/

/-- What a holder asks of a lease. -/
inductive LeaseRequest where
  | obtain (ttlMillis : Nat)
  | renew (ttlMillis : Nat)
  | release
deriving DecidableEq, Repr

namespace LeaseRequest

/-- As a holder of leases in the store asks. -/
def program (key holder : String) : LeaseRequest → Program Bool
  | obtain ttl => (Lease.stored holder).obtain key ttl
  | renew ttl => (Lease.stored holder).renew key ttl
  | release => Program.call (.releaseLease key holder)

/-- What comes of it in the store at `now`; `begun` is when the holder reckoned the end of the
lease. -/
def run (begun now : Instant) (key holder : String) :
    LeaseRequest → Store → Except Failure Bool × Store
  | obtain ttl => Call.withLeaseEnd begun ttl (Store.obtainLease now key holder)
  | renew ttl => Call.withLeaseEnd begun ttl (Store.extendLease key holder)
  | release => Call.lift (Store.releaseLease key holder)

/-- The end of the lease that is asked for. -/
def until? (begun : Instant) : LeaseRequest → Option Instant
  | obtain ttl => some (begun.addMillis ttl)
  | renew ttl => some (begun.addMillis ttl)
  | release => none

/-- The operation of the store that is asked for, as faults know it. -/
def kind : LeaseRequest → Call.Kind
  | obtain _ => .obtainLease
  | renew _ => .renewLease
  | release => .releaseLease

/-- A program of a holder reckons the end of the lease when the store answers, unless a fault fails
it. -/
theorem run_program (key holder : String) (r : LeaseRequest) (s : Site) :
    (r.program key holder).run s =
      match Fault.ask r.kind s.faults with
      | (some e, faults) => (.error (.error e), { s with faults })
      | (none, faults) =>
        ((r.run s.now s.now key holder s.store).1,
          { s with store := (r.run s.now s.now key holder s.store).2, faults }) := by
  cases r with
  | obtain ttl => exact Program.run_call _ s
  | renew ttl => exact Program.run_call _ s
  | release => exact Program.run_call _ s

/-- What makes the store consent: a lease is obtained when it is free or has expired, and renewed or
released by the one who holds it. -/
def Allowed (now : Instant) (key holder : String) (s : Store) : LeaseRequest → Prop
  | obtain _ => ∀ row, s.leases.get? key = some row → row.expiresAt ≤ now.stored
  | renew _ => s.holdsLease key holder = true
  | release => s.holdsLease key holder = true

/-- A request is refused and changes nothing, or it is allowed, and then the row of its lease is
what was asked for. -/
def Settled (begun now : Instant) (key holder : String) (s : Store) (r : LeaseRequest)
    (outcome : Except Failure Bool × Store) : Prop :=
  outcome.1 ≠ .ok true ∧ outcome.2 = s ∨
    outcome.1 = .ok true ∧ r.Allowed now key holder s ∧
      ∀ key', outcome.2.leases.get? key' =
        if key' = key then (r.until? begun).map fun t => ⟨holder, t.stored⟩ else s.leases.get? key'

theorem leaseEnd_eq_ok {begun : Instant} {ttl : Nat} {text : String}
    (h : Store.leaseEnd begun ttl = .ok text) : text = (begun.addMillis ttl).stored := by
  rw [Store.leaseEnd] at h
  split at h
  · cases h
  · simp only [Instant.addMillis?] at h
    split at h
    · next later hlater =>
      split at hlater
      · cases hlater
        exact (Except.ok.inj h).symm
      · cases hlater
    · cases h

theorem lift_statement {α : Type} (f : Store → Except Error (α × Store)) (s : Store) :
    Call.lift (.statement f) s =
      match f s with
      | .ok (a, s') => (.ok a, s')
      | .error e => (.error (.error e), s) := by
  rw [Call.lift, Action.run_statement]
  cases f s <;> rfl

variable (begun now : Instant) (key holder : String) (s : Store)

theorem settled_obtain (ttl : Nat) :
    (obtain ttl).Settled begun now key holder s ((obtain ttl).run begun now key holder s) := by
  rw [run, Call.withLeaseEnd]
  split
  · next text htext =>
    rw [Store.obtainLease, lift_statement]
    obtain rfl := leaseEnd_eq_ok htext
    cases hrow : s.leases.get? key with
    | none =>
      refine .inr ⟨rfl, fun row h => ?_, fun key' => ?_⟩
      · rw [hrow] at h
        cases h
      · dsimp only
        rw [Table.get?_insert]
        split
        · next hkey =>
          subst hkey
          rw [hrow]
          rfl
        · simp
    | some row =>
      by_cases hover : row.expiresAt ≤ now.stored
      · simp only [if_pos hover]
        refine .inr ⟨rfl, fun row' h => ?_, fun key' => ?_⟩
        · rw [hrow] at h
          cases h
          exact hover
        · rw [Table.get?_modify]
          split
          · next hkey =>
            subst hkey
            rw [hrow]
            rfl
          · rfl
      · simp only [if_neg hover]
        exact .inl ⟨by rintro ⟨⟩, rfl⟩
  · exact .inl ⟨by rintro ⟨⟩, rfl⟩

theorem settled_renew (ttl : Nat) :
    (renew ttl).Settled begun now key holder s ((renew ttl).run begun now key holder s) := by
  rw [run, Call.withLeaseEnd]
  split
  · next text htext =>
    rw [Store.extendLease, lift_statement]
    obtain rfl := leaseEnd_eq_ok htext
    by_cases hheld : s.holdsLease key holder = true
    · simp only [if_pos hheld]
      obtain ⟨row, hrow, rfl⟩ := holdsLease_iff.mp hheld
      refine .inr ⟨rfl, hheld, fun key' => ?_⟩
      rw [Table.get?_modify]
      split
      · next hkey =>
        subst hkey
        rw [hrow]
        rfl
      · rfl
    · simp only [if_neg hheld]
      exact .inl ⟨by rintro ⟨⟩, rfl⟩
  · exact .inl ⟨by rintro ⟨⟩, rfl⟩

theorem settled_release :
    release.Settled begun now key holder s (release.run begun now key holder s) := by
  rw [run, Store.releaseLease, lift_statement]
  by_cases hheld : s.holdsLease key holder = true
  · simp only [if_pos hheld]
    exact .inr ⟨rfl, hheld, s.leases.get?_erase key⟩
  · simp only [if_neg hheld]
    exact .inl ⟨by rintro ⟨⟩, rfl⟩

/-- **What a request comes to.** -/
theorem settled (r : LeaseRequest) :
    r.Settled begun now key holder s (r.run begun now key holder s) := by
  cases r with
  | obtain ttl => exact settled_obtain begun now key holder s ttl
  | renew ttl => exact settled_renew begun now key holder s ttl
  | release => exact settled_release begun now key holder s

/-- A renewal is answered with whether the holder is the one that is stored, unless the lease would
last too long. -/
theorem reply_renew (ttl : Nat) :
    ((renew ttl).run begun now key holder s).1 =
      (Store.leaseEnd begun ttl).map fun _ => s.holdsLease key holder := by
  rw [run, Call.withLeaseEnd]
  split
  · next text htext =>
    rw [htext, Store.extendLease, lift_statement]
    cases hheld : s.holdsLease key holder <;> rfl
  · next f hf =>
    rw [hf]
    rfl

/-- As long as a lease has not expired, nothing but what its holder asks is allowed. -/
theorem not_allowed {now e : Instant} {key holder holder' : String} {s : Store}
    {r : LeaseRequest} (hnow : now.IsProper) (he : e.IsSortable)
    (hlater : now.toMicros < e.toMicros)
    (hrow : s.leases.get? key = some ⟨holder', e.stored⟩) (hholder : holder ≠ holder') :
    ¬ r.Allowed now key holder s := by
  have hheld : s.holdsLease key holder ≠ true := by
    rw [ne_eq, holdsLease_iff, hrow]
    rintro ⟨row, hrow', hsame⟩
    obtain rfl := Option.some.inj hrow'
    exact hholder hsame.symm
  cases r with
  | obtain ttl =>
    intro hallowed
    have hover : e.stored ≤ now.stored := hallowed ⟨holder', e.stored⟩ hrow
    exact absurd hlater (Instant.not_lt.mpr (Instant.toMicros_le_of_stored_le he hnow hover))
  | renew ttl => exact hheld
  | release => exact hheld

/-- Renewing and releasing touch no lease but an own one. -/
theorem get?_of_not_held {r : LeaseRequest} (hr : ∀ ttl, r ≠ obtain ttl) {key' : String}
    (h : key' = key → s.holdsLease key holder = false) :
    (r.run begun now key holder s).2.leases.get? key' = s.leases.get? key' := by
  rcases r.settled begun now key holder s with ⟨-, hsame⟩ | ⟨-, hallowed, hrows⟩
  · rw [hsame]
  · rw [hrows]
    split
    · next hkey =>
      have hheld : s.holdsLease key holder = true := by
        cases r with
        | obtain ttl => exact absurd rfl (hr ttl)
        | renew ttl => exact hallowed
        | release => exact hallowed
      rw [h hkey] at hheld
      cases hheld
    · rfl

end LeaseRequest

/-! ## Runs -/

/-- A request, and how it was answered. -/
structure Answered where
  begun : Instant
  key : String
  holder : String
  request : LeaseRequest
  reply : Except Failure Bool
deriving DecidableEq

namespace Answered

/-- The holder has obtained the lease. -/
def Obtains (key holder : String) (a : Answered) : Prop :=
  a.key = key ∧ a.holder = holder ∧ a.reply = .ok true ∧ ∃ ttl, a.request = .obtain ttl

/-- The holder has released the lease, or another one was granted or has released it. -/
def Deprives (key holder : String) (a : Answered) : Prop :=
  a.key = key ∧ a.reply = .ok true ∧ (a.holder ≠ holder ∨ a.request = .release)

/-- The end of the lease that the request was granted. -/
def granted? (a : Answered) : Option Instant :=
  if a.reply = .ok true then a.request.until? a.begun else none

end Answered

/-- Time goes on, and anything is done to the site but to its leases. -/
def Site.Aside (s s' : Site) : Prop :=
  s.now ≤ s'.now ∧ s'.now.IsProper ∧ s'.store.leases = s.store.leases

/-- The store answers a request. -/
def Site.Answers (s : Site) (a : Answered) (s' : Site) : Prop :=
  a.reply = (a.request.run a.begun s.now a.key a.holder s.store).1 ∧
    s' = { s with store := (a.request.run a.begun s.now a.key a.holder s.store).2 }

/-- Any number of holders at a site, with the requests answered so far. -/
abbrev Leasing (start : Site) : List Answered → Site → Prop := Logged Site.Aside Site.Answers start

/-- **The holders of leases run such steps**: a program of theirs is a request that is reckoned and
answered at once, or a fault fails it and it changes no lease. -/
theorem Leasing.run {start s : Site} {log : List Answered} (hr : Leasing start log s)
    (hnow : s.now.IsProper) (key holder : String) (r : LeaseRequest) :
    let outcome := (r.program key holder).run s
    Leasing start (log ++ [⟨s.now, key, holder, r, outcome.1⟩]) outcome.2 ∨
      (∃ e, outcome.1 = .error (.error e)) ∧ Leasing start log outcome.2 := by
  have hanswered : ∀ faults, Leasing start
      (log ++ [⟨s.now, key, holder, r, (r.run s.now s.now key holder s.store).1⟩])
      { s with store := (r.run s.now s.now key holder s.store).2, faults } := fun faults =>
    (hr.act ⟨rfl, rfl⟩).quiet ⟨.inr ⟨rfl, Nat.le_refl _⟩, hnow, rfl⟩
  have hfailed : ∀ faults, Leasing start log { s with faults } := fun faults =>
    hr.quiet ⟨.inr ⟨rfl, Nat.le_refl _⟩, hnow, rfl⟩
  rw [LeaseRequest.run_program]
  split
  · exact .inr ⟨⟨_, rfl⟩, hfailed _⟩
  · exact .inl (hanswered _)

/-! ## Beliefs -/

/-- The end of the lease that a holder believes to hold: the one it was granted last and has not
released since. -/
def believed (key holder : String) (log : List Answered) : Option Instant :=
  log.foldl (fun e a => if a.key = key ∧ a.holder = holder ∧ a.reply = .ok true then
    a.request.until? a.begun else e) none

theorem believed_snoc (key holder : String) (log : List Answered) (a : Answered) :
    believed key holder (log ++ [a]) =
      if a.key = key ∧ a.holder = holder ∧ a.reply = .ok true then a.request.until? a.begun
      else believed key holder log := by
  rw [believed, List.foldl_append]
  rfl

/-- What a holder believes was granted. -/
theorem granted_of_believed {key holder : String} {log : List Answered} {e : Instant}
    (h : believed key holder log = some e) : ∃ a ∈ log, a.granted? = some e := by
  induction log using List.reverseRecOn with
  | nil => cases h
  | append_singleton log a ih =>
    rw [believed_snoc] at h
    split at h
    · next ha => exact ⟨a, by simp, by rw [Answered.granted?, if_pos ha.2.2, h]⟩
    · obtain ⟨b, hb, hgranted⟩ := ih h
      exact ⟨b, List.mem_append_left _ hb, hgranted⟩

/-- A belief that has not expired is the row of the store. -/
def Backed (log : List Answered) (s : Site) : Prop :=
  ∀ key holder e, believed key holder log = some e → s.now.toMicros < e.toMicros →
    s.store.leases.get? key = some ⟨holder, e.stored⟩

variable {start s s' : Site} {log : List Answered} {a : Answered}

theorem Backed.aside (hb : Backed log s) (h : s.Aside s') : Backed log s' := by
  intro key holder e he hlater
  obtain ⟨hnow, -, hleases⟩ := h
  rw [hleases]
  exact hb key holder e he (Instant.toMicros_lt_of_le_of_lt hnow hlater)

/-- A request that is granted or carried out leaves alone what others believe to hold. -/
theorem Backed.answers (hnow : s.now.IsProper)
    (hsortable : ∀ a ∈ log, ∀ e ∈ a.granted?, e.IsSortable) (hb : Backed log s)
    (h : s.Answers a s') : Backed (log ++ [a]) s' := by
  obtain ⟨hreply, rfl⟩ := h
  intro key holder e he hlater
  rw [believed_snoc] at he
  rcases a.request.settled a.begun s.now a.key a.holder s.store with
    ⟨hrefused, hsame⟩ | ⟨hdone, hallowed, hrows⟩
  · rw [← hreply] at hrefused
    rw [if_neg fun h => hrefused h.2.2] at he
    rw [hsame]
    exact hb key holder e he hlater
  · rw [hrows]
    by_cases hkey : key = a.key
    · subst hkey
      rw [if_pos rfl]
      by_cases hholder : a.holder = holder
      · rw [if_pos ⟨rfl, hholder, hreply.trans hdone⟩] at he
        rw [he, ← hholder]
        rfl
      · -- the belief of another that has not expired forbids what was done
        rw [if_neg fun h => hholder h.2.1] at he
        obtain ⟨b, hmem, hgranted⟩ := granted_of_believed he
        exact absurd hallowed (LeaseRequest.not_allowed hnow (hsortable b hmem e hgranted)
          hlater (hb a.key holder e he hlater) hholder)
    · rw [if_neg hkey]
      rw [if_neg fun h => hkey h.1.symm] at he
      exact hb key holder e he hlater

/-- Beliefs that have not expired are rows of the store at every moment. -/
theorem Leasing.backed (hstart : start.now.IsProper) (hr : Leasing start log s)
    (hsortable : ∀ a ∈ log, ∀ e ∈ a.granted?, e.IsSortable) : Backed log s := by
  have hinv := hr.inv (P := fun log s => s.now.IsProper ∧
    ((∀ a ∈ log, ∀ e ∈ a.granted?, e.IsSortable) → Backed log s)) ?_ ?_ ?_
  · exact hinv.2 hsortable
  · exact ⟨hstart, fun _ _ _ _ he => by cases he⟩
  · rintro log s s' ⟨-, hb⟩ haside
    exact ⟨haside.2.1, fun hs => (hb hs).aside haside⟩
  · rintro log s a s' ⟨hnow, hb⟩ hanswers
    refine ⟨hanswers.2 ▸ hnow, fun hs => ?_⟩
    have hs' : ∀ a ∈ log, ∀ e ∈ a.granted?, e.IsSortable := fun a ha =>
      hs a (List.mem_append_left _ ha)
    exact (hb hs').answers hnow hs' hanswers

/-! ## Lost leases -/

/-- Whoever holds a lease after an answer was not deprived of it, and has just obtained it or held
it before. -/
theorem held_after (h : s.Answers a s') {key holder : String}
    (hheld : s'.store.holdsLease key holder = true) :
    ¬ a.Deprives key holder ∧
      (a.Obtains key holder ∨ s.store.holdsLease key holder = true) := by
  obtain ⟨hreply, rfl⟩ := h
  rcases a.request.settled a.begun s.now a.key a.holder s.store with
    ⟨hrefused, hsame⟩ | ⟨hdone, hallowed, hrows⟩
  · rw [← hreply] at hrefused
    exact ⟨fun ha => hrefused ha.2.1, .inr (hsame ▸ hheld)⟩
  · obtain ⟨row, hrow, rfl⟩ := Store.holdsLease_iff.mp hheld
    rw [hrows] at hrow
    split at hrow
    · next hkey =>
      subst hkey
      obtain ⟨e, he, rfl⟩ := Option.map_eq_some_iff.mp hrow
      have hnot : ¬ a.Deprives a.key a.holder := by
        rintro ⟨-, -, hother | hrelease⟩
        · exact hother rfl
        · rw [hrelease] at he
          cases he
      cases hrequest : a.request with
      | obtain ttl => exact ⟨hnot, .inl ⟨rfl, rfl, hreply.trans hdone, ttl, hrequest⟩⟩
      | renew ttl =>
        rw [hrequest] at hallowed
        exact ⟨hnot, .inr hallowed⟩
      | release =>
        rw [hrequest] at he
        cases he
    · next hkey =>
      exact ⟨fun ha => hkey ha.1.symm, .inr (Store.holdsLease_iff.mpr ⟨row, hrow, rfl⟩)⟩

/-- Whoever was deprived of a lease does not hold it until it obtains it again. -/
theorem Leasing.not_held {before between : List Answered} {key holder : String}
    (hr : Leasing start (before ++ a :: between) s) (ha : a.Deprives key holder)
    (hbetween : ∀ b ∈ between, ¬ b.Obtains key holder) :
    s.store.holdsLease key holder ≠ true := by
  obtain ⟨s₁, s₂, -, hstep, hrest⟩ := hr.split_cons
  have hlost : s₂.store.holdsLease key holder ≠ true := fun hheld => (held_after hstep hheld).1 ha
  refine hrest.inv (P := fun log s => (∀ b ∈ log, ¬ b.Obtains key holder) →
    s.store.holdsLease key holder ≠ true) (fun _ => hlost) ?_ ?_ hbetween
  · intro log s s' hnot haside hno
    rw [Store.holdsLease, haside.2.2]
    exact hnot hno
  · intro log s b s' hnot hanswers hno hheld
    rcases (held_after hanswers hheld).2 with hobtains | hbefore
    · exact hno b (by simp) hobtains
    · exact hnot (fun b hb => hno b (List.mem_append_left _ hb)) hbefore

/-! ## Leases exclude each other -/

/-- **Leases exclude each other.**  At every moment of every run, if the leases granted so far end
in the years 0 to 9999: no two holders believe in one lease that has not expired; a renewal succeeds
exactly for the holder that is stored; whoever released a lease, or lost it to another, does not get
it back by a renewal; and renewing and releasing touch no lease but an own one. -/
theorem leases_exclude (hstart : start.now.IsProper) (hr : Leasing start log s)
    (hsortable : ∀ a ∈ log, ∀ e ∈ a.granted?, e.IsSortable) :
    (∀ key holder holder' e e', believed key holder log = some e →
      believed key holder' log = some e' → s.now.toMicros < e.toMicros →
      s.now.toMicros < e'.toMicros → holder = holder') ∧
    (∀ begun key holder ttl, ((LeaseRequest.renew ttl).run begun s.now key holder s.store).1 =
      (Store.leaseEnd begun ttl).map fun _ => s.store.holdsLease key holder) ∧
    (∀ key holder before a between, log = before ++ a :: between → a.Deprives key holder →
      (∀ b ∈ between, ¬ b.Obtains key holder) → ∀ begun ttl,
        ((LeaseRequest.renew ttl).run begun s.now key holder s.store).1 ≠ .ok true) ∧
    (∀ begun key holder (r : LeaseRequest), (∀ ttl, r ≠ .obtain ttl) → ∀ key',
      (key' = key → s.store.holdsLease key holder = false) →
        (r.run begun s.now key holder s.store).2.leases.get? key' = s.store.leases.get? key') := by
  refine ⟨?_, ?_, ?_, ?_⟩
  · intro key holder holder' e e' he he' hlater hlater'
    have hbacked := hr.backed hstart hsortable
    have hrow := hbacked key holder e he hlater
    rw [hbacked key holder' e' he' hlater'] at hrow
    exact (LeaseRow.mk.inj (Option.some.inj hrow)).1.symm
  · intro begun key holder ttl
    exact LeaseRequest.reply_renew begun s.now key holder s.store ttl
  · rintro key holder before a between rfl ha hbetween begun ttl hrenewed
    rw [LeaseRequest.reply_renew] at hrenewed
    cases hend : Store.leaseEnd begun ttl with
    | error f =>
      rw [hend] at hrenewed
      cases hrenewed
    | ok text =>
      rw [hend] at hrenewed
      exact hr.not_held ha hbetween (Except.ok.inj hrenewed)
  · intro begun key holder r hr key' hnot
    exact LeaseRequest.get?_of_not_held begun s.now key holder s.store hr hnot

/-- A lease that expires, is taken by another holder, and is not renewed any more. -/
def takeover : List Answered :=
  [⟨⟨0, 0⟩, "tick", "a", .obtain 60000, .ok true⟩, ⟨⟨0, 0⟩, "tick", "b", .obtain 60000, .ok false⟩,
    ⟨⟨60, 0⟩, "tick", "b", .obtain 60000, .ok true⟩,
    ⟨⟨60, 0⟩, "tick", "a", .renew 60000, .ok false⟩]

/-- From then on only the other holder believes in the lease, and the first one cannot renew it. -/
theorem leases_exclude_takeover : ∃ s, Leasing (.start .epoch .empty []) takeover s ∧
    believed "tick" "b" takeover = some ⟨120, 0⟩ ∧
    (∀ holder e, believed "tick" holder takeover = some e → s.now.toMicros < e.toMicros →
      holder = "b") ∧
    ∀ begun ttl, ((LeaseRequest.renew ttl).run begun s.now "tick" "a" s.store).1 ≠ .ok true := by
  have hstart : Leasing (.start .epoch .empty []) [] _ := .start
  have hobtained := hstart.act (e := ⟨⟨0, 0⟩, "tick", "a", .obtain 60000, .ok true⟩)
    ⟨by decide +kernel, rfl⟩
  have hrefused := hobtained.act (e := ⟨⟨0, 0⟩, "tick", "b", .obtain 60000, .ok false⟩)
    ⟨by decide +kernel, rfl⟩
  have hminute : Leasing _ _ { Site.start .epoch _ [] with now := ⟨60, 0⟩ } :=
    hrefused.quiet ⟨by decide, by decide, rfl⟩
  have htaken := hminute.act (e := ⟨⟨60, 0⟩, "tick", "b", .obtain 60000, .ok true⟩)
    ⟨by decide +kernel, rfl⟩
  have hr := htaken.act (e := ⟨⟨60, 0⟩, "tick", "a", .renew 60000, .ok false⟩)
    ⟨by decide +kernel, rfl⟩
  obtain ⟨honce, -, hlost, -⟩ := leases_exclude (by decide) hr (by decide +kernel)
  refine ⟨_, hr, by decide +kernel, fun holder e he hlater => ?_, ?_⟩
  · exact honce "tick" holder "b" e ⟨120, 0⟩ he (by decide +kernel) hlater (by decide)
  · refine hlost "tick" "a" (takeover.take 2) _ _ rfl ⟨rfl, rfl, .inl (by decide)⟩ ?_
    rintro b hb ⟨-, -, -, ttl, hrequest⟩
    obtain rfl := List.mem_singleton.mp hb
    cases hrequest

end GeoReplication
