import GeoReplication.Store.Basic

/-!
# Store/Leases — leases and the heartbeat

A lease belongs to a holder until it expires; then anyone may take it.  Times are compared as text,
which for the years 0 to 9999 is the order of time.
-/

namespace GeoReplication.Store

open GeoReplication.Time

/-- The longest a lease may last, in milliseconds. -/
def maxLeaseMillis : Nat := 9223372036854775807

/-- A duration of a second or more in seconds, with as many places as needed. -/
def secondsText (millis : Nat) : String :=
  let fraction := Text.trimEnd (· == '0') (Text.fixedDigits 3 (millis % 1000))
  Text.decimal (millis / 1000 : Nat)
    ++ (if fraction.isEmpty then "" else "." ++ String.ofList fraction) ++ "s"

/-- The end of a lease that begins now. -/
def leaseEnd (now : Instant) (ttlMillis : Nat) : Except Failure String :=
  if maxLeaseMillis < ttlMillis then
    .error (.error (.config ("lease ttl out of range: " ++ secondsText ttlMillis)))
  else
    match now.addMillis? ttlMillis with
    | some t => .ok t.stored
    | none => .error (.overflow .instant)

/-- Takes a lease that is free or has expired; says whether it was. -/
def obtainLease (now : Instant) (key holder expiresAt : String) : Action Bool :=
  .statement fun s =>
    match s.leases.get? key with
    | none => .ok (true, { s with leases := s.leases.insert key ⟨holder, expiresAt⟩ })
    | some row =>
      if row.expiresAt ≤ now.stored then
        .ok (true, { s with leases := s.leases.modify key fun _ => ⟨holder, expiresAt⟩ })
      else .ok (false, s)

/-- The holder of a lease is `holder`. -/
def holdsLease (s : Store) (key holder : String) : Bool :=
  (s.leases.get? key).any fun row => row.holder == holder

/-- Extends a lease of this holder; says whether there was one. -/
def extendLease (key holder expiresAt : String) : Action Bool :=
  .statement fun s =>
    if s.holdsLease key holder then
      .ok (true, { s with leases := s.leases.modify key fun row => { row with expiresAt } })
    else .ok (false, s)

/-- Gives back a lease of this holder; says whether there was one. -/
def releaseLease (key holder : String) : Action Bool :=
  .statement fun s =>
    if s.holdsLease key holder then .ok (true, { s with leases := s.leases.erase key })
    else .ok (false, s)

/-- Notes the heartbeat of the primary database. -/
def writeHeartbeat (time : Instant) : Action Unit :=
  .statement fun s => .ok ((), { s with heartbeat := some time.stored })

/-- The last heartbeat. -/
def lastHeartbeat (now : Instant) : Action (Option Instant) :=
  .read fun s => .ok (s.heartbeat.map (.ofStored now))

end GeoReplication.Store
