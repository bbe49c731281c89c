import GeoReplication.Program

/-!
# Lease — the right to be the only one

Whoever holds a lease renews it before each step and gives it back in the end.  `Lease.stored` is a
lease kept in the store under the name of its holder; `Lease.elsewhere` is any other.
-/

namespace GeoReplication

/-- How a lease is obtained, kept and given back. -/
structure Lease where
  obtain : (key : String) → (ttlMillis : Nat) → Program Bool
  renew : (key : String) → (ttlMillis : Nat) → Program Bool
  cancel : (key : String) → Program Unit

namespace Lease

/-- A lease in the store. -/
def stored (holder : String) : Lease where
  obtain key ttl := Program.call (.obtainLease key holder ttl)
  renew key ttl := Program.call (.renewLease key holder ttl)
  cancel key := do
    let _ ← Program.call (.releaseLease key holder)

/-- A lease kept elsewhere. -/
def elsewhere : Lease where
  obtain key ttl := Program.lease (.obtain key ttl)
  renew key ttl := Program.lease (.renew key ttl)
  cancel key := Program.lease (.cancel key)

end Lease

end GeoReplication
