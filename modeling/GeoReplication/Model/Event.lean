import GeoReplication.Model.Project

/-!
# Model/Event — what the primary reports

The primary appends an event for every change of a project; each secondary keeps a cursor into that
log.
-/

namespace GeoReplication

open GeoReplication.Time

/-- The kinds of change. -/
inductive EventType where
  | created
  | updated
  | deleted
  | renamed
deriving DecidableEq, Repr, Inhabited

namespace EventType

/-- The word for a kind of change. -/
def word : EventType → String
  | created => "repository_created"
  | updated => "repository_updated"
  | deleted => "repository_deleted"
  | renamed => "repository_renamed"

/-- The kind of change a word stands for. -/
def ofWord? (s : String) : Option EventType :=
  if s = "repository_created" then some created
  else if s = "repository_updated" then some updated
  else if s = "repository_deleted" then some deleted
  else if s = "repository_renamed" then some renamed
  else none

@[simp] theorem ofWord?_word (t : EventType) : ofWord? t.word = some t := by cases t <;> decide

end EventType

/-- An event to be appended. -/
structure NewEvent where
  eventType : EventType
  projectId : Int
  /-- the part that changed; only updates say it -/
  source : Option Part
deriving DecidableEq, Repr

/-- An event of the log. -/
structure Event where
  id : Int
  eventType : EventType
  projectId : Int
  source : Option Part
  createdAt : Instant
deriving DecidableEq, Repr

/-- How far a node has come in the log. -/
structure EventCursor where
  nodeId : Int
  eventId : Int
deriving DecidableEq, Repr

end GeoReplication
