import GeoReplication.Model.Project

/-!
# Model/Registry — what a node knows of its copies

For every project a node has dealt with there is a registry with one record per part.  A record that
is synced is dirty when the primary has reported a change since.
-/

namespace GeoReplication

open GeoReplication.Time

/-- How the last attempt to copy a part ended. -/
inductive SyncState where
  | neverSynced
  | synced
  | syncFailed
deriving DecidableEq, Repr, Inhabited

namespace SyncState

/-- The word for a state. -/
def word : SyncState → String
  | neverSynced => "never_synced"
  | synced => "synced"
  | syncFailed => "sync_failed"

/-- The state a word stands for. -/
def ofWord? (s : String) : Option SyncState :=
  if s = "never_synced" then some neverSynced
  else if s = "synced" then some synced
  else if s = "sync_failed" then some syncFailed
  else none

@[simp] theorem ofWord?_word (s : SyncState) : ofWord? s.word = some s := by cases s <;> decide

end SyncState

/-- What a node knows of its copy of one part. -/
structure SyncRecord where
  state : SyncState
  lastSyncedAt : Option Instant
  lastSuccessfulSyncAt : Option Instant
  /-- failures since the last success -/
  retryCount : Int
  lastFailure : Option String
  /-- the primary has reported a change since the last successful copy -/
  resync : Bool
deriving DecidableEq, Repr

namespace SyncRecord

/-- The record of a part that was never attempted. -/
def fresh : SyncRecord := ⟨.neverSynced, none, none, 0, none, false⟩

/-- Synced, but the source has changed after the last successful copy. -/
def isDirty (r : SyncRecord) (sourceUpdatedAt : Option Instant) : Bool :=
  if r.state ≠ .synced then false
  else if r.resync then true
  else match sourceUpdatedAt, r.lastSuccessfulSyncAt with
    | some updated, some synced => synced < updated
    | some _, none => true
    | none, _ => false

end SyncRecord

/-- What a node knows of its copy of a project. -/
structure Registry where
  nodeId : Int
  projectId : Int
  repository : SyncRecord
  wiki : SyncRecord
  createdAt : Instant
deriving DecidableEq, Repr

namespace Registry

/-- The registry of a project that was never attempted. -/
def fresh (nodeId projectId : Int) (now : Instant) : Registry :=
  ⟨nodeId, projectId, .fresh, .fresh, now⟩

/-- The record of a part. -/
def record (r : Registry) : Part → SyncRecord
  | .repository => r.repository
  | .wiki => r.wiki

/-- The registry with the record of a part changed. -/
def modify (r : Registry) (f : SyncRecord → SyncRecord) : Part → Registry
  | .repository => { r with repository := f r.repository }
  | .wiki => { r with wiki := f r.wiki }

end Registry

end GeoReplication
