import GeoReplication.Api.Nodes
import GeoReplication.EventLog
import GeoReplication.Wire.Event
import GeoReplication.Wire.Report

/-!
# Api/Routes — which resource answers a request

`Resource.ofSegments?` recognises the paths, `Server.handler?` the methods of each.  A head is
answered as the page it belongs to, without its body.
-/

namespace GeoReplication.Api

open GeoReplication.Http GeoReplication.Json

/-- What can be asked for; the variable parts still escaped. -/
inductive Resource where
  | liveness
  | nodes
  | node (id : List Char)
  | nodeStatus (id : List Char)
  | queueJobs (name : List Char)
  | currentStatus
  | events
deriving DecidableEq, Repr

namespace Resource

/-- The resource of a path below the administration. -/
def ofAdmin? (segments : List String) (escaped : List (List Char)) : Option Resource :=
  match segments, escaped with
  | ["geo", "nodes"], _ => some .nodes
  | ["geo", "nodes", _], [_, _, id] => if id.isEmpty then none else some (.node id)
  | ["geo", "nodes", _, "status"], [_, _, id, _] => some (.nodeStatus id)
  | ["queues", _, "jobs"], [_, name, _] => some (.queueJobs name)
  | _, _ => none

/-- The resource of a path, which begins with a slash. -/
def ofSegments? (escaped : List (List Char)) : Option Resource :=
  match escaped.map String.ofList with
  | ["", "health"] => some .liveness
  | "" :: "api" :: "v1" :: "admin" :: rest => ofAdmin? rest (escaped.drop 4)
  | ["", "api", "v1", "geo", "status"] => some .currentStatus
  | ["", "api", "v1", "geo", "events"] => some .events
  | _ => none

end Resource

namespace Server

/-- A status as a refusal without words of its own. -/
def bare (status : Nat) : Handler Response := pure (.bare status)

/-- The handler for an id in the path; anything but an id is refused. -/
def withId (segment : List Char) (handler : Int → Handler Response) : Handler Response :=
  match (segmentText? segment).bind fun text => Text.id? text.toList with
  | some id => handler id
  | none => bare 400

/-- The handler for the record in the body. -/
def withBody {α : Type} (r : Request) (record : RecordReader α) (handler : α → Handler Response) :
    Handler Response :=
  match r.read record.read with
  | .ok a => handler a
  | .error status => bare status

/-- Appends an event. -/
def createEvent (s : Server) (e : NewEvent) : Handler Response := do
  let current ← s.currentNode
  let e ← Handler.during "Failed to append event" (EventLog.append current e)
  return success 201 e.json

/-- How long the removal of jobs may take unless said otherwise, in seconds. -/
def defaultDropSeconds : Nat := 30

/-- How long the removal of jobs may take, in seconds. -/
def dropSeconds (metadata : List (String × String)) : Handler Nat :=
  match metadata.lookup "timeout" with
  | none => pure defaultDropSeconds
  | some text =>
    match Text.unsigned? Text.maxUnsigned text.toList with
    | some seconds => pure seconds
    | none => throw ⟨400, "timeout must be a number of seconds"⟩

/-- Removes pending jobs of a queue. -/
def dropJobs (name : String) (metadata : List (String × String)) : Handler Response := do
  let seconds ← dropSeconds metadata
  let report ← Handler.during "Failed to drop jobs"
    (Program.dropJobs name (metadata.filter (·.1 ≠ "timeout")) (seconds * 1000))
  return success 200 report.json

/-- The handler of a method on a resource, if it has one. -/
def handler? (s : Server) (r : Request) (resource : Resource) (method : String) :
    Option (Handler Response) :=
  match resource, method with
  | .liveness, "GET" => some (pure ⟨200, .text "OK"⟩)
  | .nodes, "GET" => some s.listNodes
  | .nodes, "POST" => some (withBody r NewNode.record s.createNode)
  | .node id, "GET" => some (withId id s.showNode)
  | .node id, "PATCH" =>
    some (withId id fun id => withBody r NodeUpdate.record (s.updateNode id))
  | .node id, "DELETE" => some (withId id deleteNode)
  | .nodeStatus id, "GET" => some (withId id s.nodeStatus)
  | .queueJobs name, "DELETE" =>
    match segmentText? name with
    | some name => some (dropJobs name r.target.query)
    | none => some (bare 400)
  | .currentStatus, "GET" => some s.currentStatus
  | .events, "POST" => some (withBody r NewEvent.record s.createEvent)
  | _, _ => none

/-- Answers a request. -/
def answer (s : Server) (r : Request) : Program Response := do
  match Resource.ofSegments? r.target.segments with
  | none => pure (.bare 404)
  | some resource =>
    let isHead := r.method = "HEAD"
    match s.handler? r resource (if isHead then "GET" else r.method) with
    | none => pure (.bare 405)
    | some handler =>
      let response ← handler.response
      pure (if isHead then response.withoutBody else response)

end Server

end GeoReplication.Api
