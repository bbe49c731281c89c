import GeoReplication.Program

/-!
# EventLog — what a secondary does with the events of the primary

A run takes a batch of events behind the cursor, applies them in order and moves the cursor behind
those it has consumed.  An event of an unknown project is skipped; any other error ends the batch
before that event, so that the next run begins with it.
-/

namespace GeoReplication.EventLog

/-- Appends an event; only the primary does. -/
def append (current : Node) (e : NewEvent) : Program Event :=
  if current.isPrimary then Program.call (.appendEvent e) else Program.fail .notPrimary

/-- What a run did. -/
structure BatchReport where
  processed : Nat
  cursor : Int
deriving DecidableEq, Repr

/-- Applies one event. -/
def apply (n : Node) (e : Event) : Program Unit := do
  if e.eventType ≠ .deleted then
    if (← Program.call (.getProject e.projectId)).isNone then Program.fail .notFound
  match e.eventType with
  | .updated => Program.call (.requestResync n.id e.projectId (e.source.getD .repository))
  | .created => Program.call (.requestResync n.id e.projectId .repository)
  | .renamed => Program.call (.requestResync n.id e.projectId .repository)
  | .deleted => do
    let _ ← Program.call (.deleteRegistry n.id e.projectId)

/-- Applies events in order until one fails; gives those consumed, the skipped ones included. -/
def applyAll (n : Node) : List Event → Program (List Event)
  | [] => pure []
  | e :: es => do
    match ← (apply n e).attempt with
    | .ok () => return e :: (← applyAll n es)
    | .error .notFound => return e :: (← applyAll n es)
    | .error _ => return []

/-- One run over at most `batchSize` events, but at least one. -/
def runOnce (n : Node) (batchSize : Nat) : Program BatchReport := do
  let cursor := ((← Program.call (.getCursor n.id)).map (·.eventId)).getD 0
  if !n.isSecondary then return ⟨0, cursor⟩
  let events ← Program.call (.listEventsAfter cursor (max batchSize 1))
  let consumed ← applyAll n events
  match consumed.getLast? with
  | none => return ⟨0, cursor⟩
  | some last => return ⟨consumed.length, ← Program.call (.advanceCursor n.id last.id)⟩

end GeoReplication.EventLog
