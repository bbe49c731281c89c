import GeoReplication.Store.Basic

/-!
# Store/Registries — what nodes know of their copies

A registry row appears when a node first deals with a project.  Recording the outcome of an attempt
reads the row back, so an attempt on a row that cannot be read leaves nothing behind.
-/

namespace GeoReplication.Store

open GeoReplication.Time

/-- The registry of a node for a project. -/
def readRegistry (s : Store) (now : Instant) (nodeId projectId : Int) :
    Except Error (Option Registry) :=
  match s.registries.get? (nodeId, projectId) with
  | none => .ok none
  | some row => (row.record now nodeId projectId).map some

/-- The registry of a node for a project. -/
def getRegistry (now : Instant) (nodeId projectId : Int) : Action (Option Registry) :=
  .read fun s => s.readRegistry now nodeId projectId

/-- A fresh row, unless there is one; node and project exist. -/
def ensureRegistry (now : Instant) (nodeId projectId : Int) : Action Unit :=
  .statement fun s =>
    if s.registries.contains (nodeId, projectId) then .ok ((), s)
    else if s.nodes.contains nodeId && s.projects.contains projectId then
      .ok ((), { s with
        registries := s.registries.insert (nodeId, projectId) (.fresh now.stored) })
    else .error .danglingReference

/-- Changes the half of a row that belongs to a part. -/
def changePart (nodeId projectId : Int) (part : Part) (f : PartRow → PartRow) : Action Unit :=
  .statement fun s =>
    .ok ((), { s with registries := s.registries.modify (nodeId, projectId) (·.modify part f) })

/-- The registry that was just written. -/
def rereadRegistry (now : Instant) (nodeId projectId : Int) : Action Registry :=
  .read fun s =>
    match s.readRegistry now nodeId projectId with
    | .ok (some r) => .ok r
    | .ok none => .error .notFound
    | .error e => .error e

/-- Records an attempt that began at `started` and succeeded. -/
def recordSyncSuccess (now : Instant) (nodeId projectId : Int) (part : Part) (started : Instant) :
    Action Registry :=
  .transaction do
    ensureRegistry now nodeId projectId
    changePart nodeId projectId part (.succeed now.stored started.stored)
    rereadRegistry now nodeId projectId

/-- Records an attempt that failed. -/
def recordSyncFailure (now : Instant) (nodeId projectId : Int) (part : Part) (reason : String) :
    Action Registry :=
  .transaction do
    ensureRegistry now nodeId projectId
    changePart nodeId projectId part (.fail now.stored reason)
    rereadRegistry now nodeId projectId

/-- Asks for a part to be copied again. -/
def requestResync (now : Instant) (nodeId projectId : Int) (part : Part) : Action Unit :=
  .transaction do
    ensureRegistry now nodeId projectId
    changePart nodeId projectId part (.requestResync now.stored)

/-- Removes a registry. -/
def deleteRegistry (nodeId projectId : Int) : Action Bool :=
  .statement fun s =>
    .ok (s.registries.contains (nodeId, projectId),
      { s with registries := s.registries.erase (nodeId, projectId) })

end GeoReplication.Store
