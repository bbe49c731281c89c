import GeoReplication.Model.Registry
import GeoReplication.Wire.Project

/-!
# Wire/Registry — registries as records
-/

namespace GeoReplication

open GeoReplication.Json GeoReplication.Wire

namespace SyncState

/-- A state as a record holds it. -/
def json (s : SyncState) : Json := .string s.word

/-- Reads a state. -/
def decode : Decoder SyncState := Doc.asWord ofWord?

end SyncState

namespace SyncRecord

/-- The record; times and failure only where there are any. -/
def json (r : SyncRecord) : Json :=
  .object ([("state", r.state.json)] ++
    member? "last_synced_at" time r.lastSyncedAt ++
    member? "last_successful_sync_at" time r.lastSuccessfulSyncAt ++
    [("retry_count", .int r.retryCount)] ++
    member? "last_failure" .string r.lastFailure ++
    [("resync", .bool r.resync)])

/-- The fields in order. -/
def record : RecordReader SyncRecord :=
  SyncRecord.mk <$> .field "state" SyncState.decode
    <*> .optionalField "last_synced_at" Doc.asInstant
    <*> .optionalField "last_successful_sync_at" Doc.asInstant
    <*> .field "retry_count" asCount
    <*> .optionalField "last_failure" Doc.asString
    <*> .field "resync" Doc.asBool

end SyncRecord

namespace Registry

/-- The record. -/
def json (r : Registry) : Json :=
  .object [("node_id", .int r.nodeId), ("project_id", .int r.projectId),
    ("repository", r.repository.json), ("wiki", r.wiki.json), ("created_at", time r.createdAt)]

/-- The fields in order. -/
def fields : RecordReader Registry :=
  Registry.mk <$> .field "node_id" Doc.asId <*> .field "project_id" Doc.asId
    <*> .field "repository" SyncRecord.record.read <*> .field "wiki" SyncRecord.record.read
    <*> .field "created_at" Doc.asInstant

end Registry

end GeoReplication
