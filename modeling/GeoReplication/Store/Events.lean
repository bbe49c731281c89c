import GeoReplication.Store.Basic

/-!
# Store/Events — the event log and the cursors into it

The log only grows.  A cursor only moves forward and never beyond the last event.
-/

namespace GeoReplication.Store

open GeoReplication.Time

/-- The number of the last event, 0 if there is none. -/
def lastEventId (s : Store) : Int := (s.events.rows.getLast?.map Prod.fst).getD 0

/-- A limit on rows; one of 63 bits or more is none. -/
def limited {α : Type} (limit : Nat) (rows : List α) : List α :=
  if limit < Nat.pow 2 63 then rows.take limit else rows

/-- Events read from rows, in order. -/
def readEvents (now : Instant) : List (Int × EventRow) → Except Error (List Event)
  | [] => .ok []
  | (id, row) :: rows => do
    let e ← row.record now id
    return e :: (← readEvents now rows)

/-- A new event. -/
def appendEvent (now : Instant) (e : NewEvent) : Action Event :=
  .statement fun s =>
    .ok (⟨s.events.next, e.eventType, e.projectId, e.source, now⟩,
      { s with events :=
        s.events.insert ⟨e.eventType.word, e.projectId, e.source.map Part.word, now.stored⟩ })

/-- The event with a number. -/
def getEvent (now : Instant) (id : Int) : Action (Option Event) :=
  .read fun s =>
    match s.events.get? id with
    | none => .ok none
    | some row => (row.record now id).map some

/-- The last event. -/
def lastEvent (now : Instant) : Action (Option Event) :=
  .read fun s =>
    match s.events.rows.getLast? with
    | none => .ok none
    | some (id, row) => (row.record now id).map some

/-- The rows after a number, at most `limit`. -/
def eventRowsAfter (s : Store) (afterId : Int) (limit : Nat) : List (Int × EventRow) :=
  limited limit (s.events.rows.filter fun r => afterId < r.1)

/-- The events after a number in order, at most `limit`. -/
def listEventsAfter (now : Instant) (afterId : Int) (limit : Nat) : Action (List Event) :=
  .read fun s => readEvents now (s.eventRowsAfter afterId limit)

/-- The cursor of a node. -/
def getCursor (nodeId : Int) : Action (Option EventCursor) :=
  .read fun s => .ok ((s.cursors.get? nodeId).map fun eventId => ⟨nodeId, eventId⟩)

/-- Writes a cursor: forward only, and not beyond the last event. -/
def putCursor (nodeId eventId : Int) : Action Unit :=
  .statement fun s =>
    let reached := min eventId s.lastEventId
    if s.cursors.contains nodeId || s.nodes.contains nodeId then
      .ok ((), { s with cursors := s.cursors.upsert nodeId reached fun old => max old reached })
    else .error .danglingReference

/-- Moves the cursor of a node forward to an event, and says where it stands then. -/
def advanceCursor (nodeId eventId : Int) : Action Int := do
  putCursor nodeId eventId
  .read fun s =>
    match s.cursors.get? nodeId with
    | some eventId => .ok eventId
    | none => .error .notFound

end GeoReplication.Store
