import GeoReplication.Model.Event
import GeoReplication.Wire.Project

/-!
# Wire/Event — events and cursors as records
-/

namespace GeoReplication

open GeoReplication.Json GeoReplication.Wire

namespace EventType

/-- A kind of change as a record holds it. -/
def json (t : EventType) : Json := .string t.word

/-- Reads a kind of change. -/
def decode : Decoder EventType := Doc.asWord ofWord?

end EventType

namespace NewEvent

/-- The record; a source only where there is one. -/
def json (e : NewEvent) : Json :=
  .object ([("event_type", e.eventType.json), ("project_id", .int e.projectId)] ++
    member? "source" Part.json e.source)

/-- The fields in order. -/
def record : RecordReader NewEvent :=
  NewEvent.mk <$> .field "event_type" EventType.decode <*> .field "project_id" Doc.asId
    <*> .optionalFieldOr "source" Part.decode

end NewEvent

namespace Event

/-- The record; a source only where there is one. -/
def json (e : Event) : Json :=
  .object ([("id", .int e.id), ("event_type", e.eventType.json),
      ("project_id", .int e.projectId)] ++
    member? "source" Part.json e.source ++ [("created_at", time e.createdAt)])

/-- The fields in order. -/
def record : RecordReader Event :=
  Event.mk <$> .field "id" Doc.asId <*> .field "event_type" EventType.decode
    <*> .field "project_id" Doc.asId <*> .optionalField "source" Part.decode
    <*> .field "created_at" Doc.asInstant

end Event

namespace EventCursor

/-- The record. -/
def json (c : EventCursor) : Json :=
  .object [("node_id", .int c.nodeId), ("event_id", .int c.eventId)]

/-- The fields in order. -/
def record : RecordReader EventCursor :=
  EventCursor.mk <$> .field "node_id" Doc.asId <*> .field "event_id" Doc.asId

end EventCursor

end GeoReplication
