import GeoReplication.Model.Status
import GeoReplication.Wire.Field

/-!
# Wire/Status — the state of replication as a record

The counts of the three classes lie side by side in one flat record, each under the name of its
class.
-/

namespace GeoReplication

open GeoReplication.Json GeoReplication.Wire

namespace CopyCounts

/-- The four fields of a class. -/
def members (c : CopyCounts) (name : String) : List (String × Json) :=
  [(name ++ "_count", .nat c.total), (name ++ "_synced_count", .nat c.synced),
    (name ++ "_synced_in_percentage", .real c.percentage), (name ++ "_failed_count", .nat c.failed)]

/-- The four fields of a class in order. -/
def record (name : String) : RecordReader CopyCounts :=
  CopyCounts.mk <$> .field (name ++ "_count") asUnsigned
    <*> .field (name ++ "_synced_count") asUnsigned
    <*> .field (name ++ "_synced_in_percentage") Doc.asFloat
    <*> .field (name ++ "_failed_count") asUnsigned

end CopyCounts

namespace NodeStatus

/-- The record; what is unknown is `null`. -/
def json (s : NodeStatus) : Json :=
  .object ([("healthy", .bool s.healthy), ("health", .string s.health),
      ("db_replication_lag", .optional .int s.lag)] ++
    s.repositories.members "repositories" ++ s.lfsObjects.members "lfs_objects" ++
    s.attachments.members "attachments" ++
    [("last_event_id", .optional .int s.lastEventId),
      ("last_event_date", .optional time s.lastEventDate),
      ("cursor_last_event_id", .optional .int s.cursorEventId),
      ("cursor_last_event_date", .optional time s.cursorEventDate)])

/-- The fields in order. -/
def record : RecordReader NodeStatus :=
  NodeStatus.mk <$> .field "healthy" Doc.asBool <*> .field "health" Doc.asString
    <*> .optionalField "db_replication_lag" Doc.asId
    <*> CopyCounts.record "repositories" <*> CopyCounts.record "lfs_objects"
    <*> CopyCounts.record "attachments"
    <*> .optionalField "last_event_id" Doc.asId <*> .optionalField "last_event_date" Doc.asInstant
    <*> .optionalField "cursor_last_event_id" Doc.asId
    <*> .optionalField "cursor_last_event_date" Doc.asInstant

end NodeStatus

end GeoReplication
