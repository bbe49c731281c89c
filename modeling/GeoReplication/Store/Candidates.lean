import GeoReplication.Store.Events
import GeoReplication.Store.Visibility

/-!
# Store/Candidates — projects that wait to be copied

Three categories: never attempted, failed at the last attempt, and updated since the last success.
For the third, times are compared as text; a project without update time is not dirty by it, and a
missing success counts as earlier than everything.
-/

namespace GeoReplication

/-- Which projects are candidates at all. -/
structure CandidateFilter where
  scope : Scope
  /-- storages that can be reached -/
  storages : List String
  includeWikis : Bool
deriving DecidableEq, Repr

/-- Why a project waits to be copied. -/
inductive Category where
  | neverSynced
  | failed
  | dirty
deriving DecidableEq, Repr

namespace ProjectRow

/-- The part is to be copied at all. -/
def hasPart (p : ProjectRow) (includeWikis : Bool) : Part → Bool
  | .repository => true
  | .wiki => includeWikis && p.wikiEnabled

end ProjectRow

namespace PartRow

/-- Synced, but a resync was requested, or the part was updated after the last success. -/
def isDirty (r : PartRow) (updatedAt : Option String) : Bool :=
  r.state == SyncState.synced.word &&
    (r.resyncAt.isSome || updatedAt.any fun updated => r.successfulAt.getD "" < updated)

end PartRow

namespace Category

/-- The condition of the category on one part. -/
def holdsFor (c : Category) (p : ProjectRow) (r : RegistryRow) (part : Part) : Bool :=
  match c with
  | neverSynced => (r.part part).syncedAt.isNone
  | failed => (r.part part).state == SyncState.syncFailed.word
  | dirty => (r.part part).isDirty (p.updatedAt part)

/-- The condition of the category: on the repository, or on the wiki if that is to be copied too. A
project without registry was never attempted. -/
def holds (c : Category) (includeWikis : Bool) (p : ProjectRow) : Option RegistryRow → Bool
  | none => c = neverSynced
  | some r =>
    c.holdsFor p r .repository || (p.hasPart includeWikis .wiki && c.holdsFor p r .wiki)

end Category

namespace Store

/-- The project is seen and lies on one of the storages. -/
def admits (s : Store) (f : CandidateFilter) (p : ProjectRow) : Bool :=
  s.sees f.scope p.namespaceId && f.storages.contains p.storage

/-- The project is a candidate of the category. -/
def isCandidate (s : Store) (f : CandidateFilter) (c : Category) (id : Int) (p : ProjectRow) :
    Bool :=
  s.admits f p && c.holds f.includeWikis p (s.registries.get? (f.scope.nodeId, id))

/-- All candidates of a category, by number. -/
def allCandidates (s : Store) (f : CandidateFilter) (c : Category) : List Int :=
  (s.projects.rows.filter fun r => s.isCandidate f c r.1 r.2).map Prod.fst

/-- The candidates of a category after a number, at most `limit`. -/
def candidates (s : Store) (f : CandidateFilter) (c : Category) (afterId : Int) (limit : Nat) :
    List Int :=
  limited limit ((s.allCandidates f c).filter fun id => afterId < id)

/-- The candidates of a category after a number, at most `limit`. -/
def findCandidates (f : CandidateFilter) (c : Category) (afterId : Int) (limit : Nat) :
    Action (List Int) := .read fun s => .ok (s.candidates f c afterId limit)

end Store

end GeoReplication
