import GeoReplication.Error
import GeoReplication.Model.Event
import GeoReplication.Model.File
import GeoReplication.Model.Node
import GeoReplication.Model.Registry
import GeoReplication.Time.Rfc3339

/-!
# Store/Rows — what lies in the tables

Times are kept as text and the words of registries and events as they were written, so a row can
hold what no record can: a text that is no time reads as the current time, an unknown word or a
number out of range is an error when the row is read.
-/

namespace GeoReplication

open GeoReplication.Time

/-- A namespace. -/
structure NamespaceRow where
  name : String
  parentId : Option Int
  createdAt : String
deriving DecidableEq, Repr

/-- A project. -/
structure ProjectRow where
  namespaceId : Int
  name : String
  diskPath : String
  storage : String
  wikiEnabled : Bool
  repositoryUpdatedAt : Option String
  wikiUpdatedAt : Option String
  sizeBytes : Option Int
  createdAt : String
deriving DecidableEq, Repr

/-- An address. -/
structure AddressRow where
  scheme : String
  host : String
  port : Int
  root : String
deriving DecidableEq, Repr

/-- A node without its namespaces. -/
structure NodeRow where
  address : AddressRow
  primary : Bool
  enabled : Bool
  reposMaxCapacity : Int
  filesMaxCapacity : Int
  createdAt : String
  updatedAt : String
deriving DecidableEq, Repr

/-- The half of a registry row that belongs to one part. -/
structure PartRow where
  state : String
  syncedAt : Option String
  successfulAt : Option String
  retryCount : Int
  failure : Option String
  resyncAt : Option String
deriving DecidableEq, Repr

/-- A registry. -/
structure RegistryRow where
  repository : PartRow
  wiki : PartRow
  createdAt : String
deriving DecidableEq, Repr

/-- An upload. -/
structure UploadRow where
  upload : NewUpload
  createdAt : String
deriving DecidableEq, Repr

/-- A large object. -/
structure LfsObjectRow where
  oid : String
  size : Int
  createdAt : String
deriving DecidableEq, Repr

/-- A copied file. -/
structure CopyRow where
  bytes : Int
  sha256 : Option String
  createdAt : String
deriving DecidableEq, Repr

/-- A file that could not be copied. -/
structure FailureRow where
  retryCount : Int
  reason : String
  attemptedAt : String
deriving DecidableEq, Repr

/-- An event. -/
structure EventRow where
  eventType : String
  projectId : Int
  source : Option String
  createdAt : String
deriving DecidableEq, Repr

/-- A lease: who holds it, and until when. -/
structure LeaseRow where
  holder : String
  expiresAt : String
deriving DecidableEq, Repr

/-- The row of an address. -/
def Address.row (a : Address) : AddressRow := ⟨a.scheme, a.host, a.port.toNat, a.root⟩

/-! ## Reading rows -/

namespace NamespaceRow

/-- The namespace in the row with number `id`. -/
def record (now : Instant) (id : Int) (r : NamespaceRow) : Namespace :=
  ⟨id, r.name, r.parentId, .ofStored now r.createdAt⟩

end NamespaceRow

namespace ProjectRow

/-- The project in the row with number `id`. -/
def record (now : Instant) (id : Int) (r : ProjectRow) : Project where
  id := id
  namespaceId := r.namespaceId
  name := r.name
  diskPath := r.diskPath
  repositoryStorage := r.storage
  wikiEnabled := r.wikiEnabled
  lastRepositoryUpdatedAt := r.repositoryUpdatedAt.map (.ofStored now)
  lastWikiUpdatedAt := r.wikiUpdatedAt.map (.ofStored now)
  repositorySizeBytes := r.sizeBytes
  createdAt := .ofStored now r.createdAt

/-- When the part was last updated. -/
def updatedAt (r : ProjectRow) : Part → Option String
  | .repository => r.repositoryUpdatedAt
  | .wiki => r.wikiUpdatedAt

/-- The row with the part updated at `time`. -/
def touch (r : ProjectRow) (time : String) : Part → ProjectRow
  | .repository => { r with repositoryUpdatedAt := some time }
  | .wiki => { r with wikiUpdatedAt := some time }

end ProjectRow

/-- The value a stored word stands for. -/
def readWord {α : Type} (column : Nat) (word : String) (ofWord? : String → Option α) :
    Except Error α :=
  match ofWord? word with
  | some a => .ok a
  | none => .error (.database (.unknownWord column word))

/-- A stored number, if it is one from `min` to `max`. -/
def readNumber (column : Nat) (min max number : Int) : Except Error Int :=
  if number < min ∨ max < number then .error (.database (.outOfRange column number))
  else .ok number

/-- What is read in two steps is read in each of them. -/
theorem bind_eq_ok_iff {ε α β : Type} {x : Except ε α} {f : α → Except ε β} {b : β} :
    x >>= f = .ok b ↔ ∃ a, x = .ok a ∧ f a = .ok b := by
  cases x with
  | error e => exact ⟨fun h => (by cases h), fun ⟨_, h, _⟩ => by cases h⟩
  | ok a => exact ⟨fun h => ⟨a, rfl, h⟩, fun ⟨_, ha, hf⟩ => by cases ha; exact hf⟩

theorem readNumber_eq_ok_iff {column : Nat} {min max number n : Int} :
    readNumber column min max number = .ok n ↔ (min ≤ number ∧ number ≤ max) ∧ number = n := by
  rw [readNumber]
  split
  · next hout => exact ⟨fun h => (by cases h), fun h => absurd hout (by omega)⟩
  · next hin => exact ⟨fun h => ⟨by omega, Except.ok.inj h⟩, fun h => congrArg Except.ok h.2⟩

namespace NodeRow

/-- The node in the row with number `id`, with its namespaces. -/
def record (now : Instant) (id : Int) (namespaceIds : List Int) (r : NodeRow) :
    Except Error Node := do
  let port ← readNumber 3 0 Address.maxPort r.address.port
  let repos ← readNumber 7 0 Node.maxCapacity r.reposMaxCapacity
  let files ← readNumber 8 0 Node.maxCapacity r.filesMaxCapacity
  return {
    id
    address := ⟨r.address.scheme, r.address.host, .ofNat port.toNat, r.address.root⟩
    role := if r.primary then .primary else .secondary
    enabled := r.enabled
    namespaceIds
    reposMaxCapacity := .ofNat repos.toNat
    filesMaxCapacity := .ofNat files.toNat
    createdAt := .ofStored now r.createdAt
    updatedAt := .ofStored now r.updatedAt }

/-- The namespaces have no say in whether the row can be read. -/
theorem record_eq_map (now : Instant) (id : Int) (namespaceIds : List Int) (r : NodeRow) :
    r.record now id namespaceIds = (r.record now id []).map fun n => { n with namespaceIds } := by
  rw [record, record]
  cases readNumber 3 0 Address.maxPort r.address.port with
  | error e => rfl
  | ok port =>
    cases readNumber 7 0 Node.maxCapacity r.reposMaxCapacity with
    | error e => rfl
    | ok repos => cases readNumber 8 0 Node.maxCapacity r.filesMaxCapacity <;> rfl

end NodeRow

namespace PartRow

/-- The row of a part that was never attempted. -/
def fresh : PartRow := ⟨SyncState.neverSynced.word, none, none, 0, none, none⟩

/-- The record in the row, whose first column is `column`. -/
def record (now : Instant) (column : Nat) (r : PartRow) : Except Error SyncRecord := do
  let state ← readWord column r.state SyncState.ofWord?
  let retryCount ← readNumber (column + 3) (-2147483648) 2147483647 r.retryCount
  return {
    state
    lastSyncedAt := r.syncedAt.map (.ofStored now)
    lastSuccessfulSyncAt := r.successfulAt.map (.ofStored now)
    retryCount
    lastFailure := r.failure
    resync := r.resyncAt.isSome }

/-- The row after an attempt that began at `started` and succeeded at `time`: a resync requested
after the attempt began stays. -/
def succeed (time started : String) (r : PartRow) : PartRow where
  state := SyncState.synced.word
  syncedAt := some time
  successfulAt := some started
  retryCount := 0
  failure := none
  resyncAt := r.resyncAt.filter fun requested => started < requested

/-- The row after an attempt that failed at `time`. -/
def fail (time reason : String) (r : PartRow) : PartRow :=
  { r with
    state := SyncState.syncFailed.word
    syncedAt := some time
    retryCount := r.retryCount + 1
    failure := some reason }

/-- The row after a resync was requested at `time`. -/
def requestResync (time : String) (r : PartRow) : PartRow := { r with resyncAt := some time }

end PartRow

namespace RegistryRow

/-- The row of a project that was never attempted. -/
def fresh (time : String) : RegistryRow := ⟨.fresh, .fresh, time⟩

/-- The half that belongs to a part. -/
def part (r : RegistryRow) : Part → PartRow
  | .repository => r.repository
  | .wiki => r.wiki

/-- The row with the half that belongs to a part changed. -/
def modify (p : Part) (f : PartRow → PartRow) (r : RegistryRow) : RegistryRow :=
  match p with
  | .repository => { r with repository := f r.repository }
  | .wiki => { r with wiki := f r.wiki }

/-- The registry in the row. -/
def record (now : Instant) (nodeId projectId : Int) (r : RegistryRow) : Except Error Registry := do
  let repository ← r.repository.record now 2
  let wiki ← r.wiki.record now 8
  return ⟨nodeId, projectId, repository, wiki, .ofStored now r.createdAt⟩

@[simp] theorem part_modify (p : Part) (f : PartRow → PartRow) (r : RegistryRow) :
    (r.modify p f).part p = f (r.part p) := by cases p <;> rfl

theorem part_modify_of_ne {p q : Part} (h : q ≠ p) (f : PartRow → PartRow) (r : RegistryRow) :
    (r.modify p f).part q = r.part q := by cases p <;> cases q <;> first | rfl | exact absurd rfl h

end RegistryRow

namespace EventRow

/-- The event in the row with number `id`. -/
def record (now : Instant) (id : Int) (r : EventRow) : Except Error Event := do
  let eventType ← readWord 1 r.eventType EventType.ofWord?
  let source ← match r.source with
    | none => .ok none
    | some word => (readWord 3 word Part.ofWord?).map some
  return ⟨id, eventType, r.projectId, source, .ofStored now r.createdAt⟩

end EventRow

end GeoReplication
