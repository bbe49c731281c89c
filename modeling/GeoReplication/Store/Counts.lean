import GeoReplication.Store.Visibility

/-!
# Store/Counts — numbers for the status

A file counts as synced under any kind of its class, and as failed when it failed under one and is
synced under none.
-/

namespace GeoReplication

/-- The two classes of files. -/
inductive FileClass where
  | lfsObjects
  | attachments
deriving DecidableEq, Repr

namespace FileClass

/-- The kinds of file that count for the class. -/
def types : FileClass → List FileType
  | lfsObjects => [.lfs]
  | attachments => FileType.uploads

/-- The class a word stands for. -/
def ofWord? : String → Option FileClass
  | "lfs_objects" => some lfsObjects
  | "attachments" => some attachments
  | _ => none

end FileClass

/-- Numbers of files. -/
structure FileCounts where
  total : Nat
  synced : Nat
  failed : Nat
deriving DecidableEq, Repr

namespace Store

/-- The number of projects that are seen. -/
def projectCount (s : Store) (scope : Scope) : Nat := (s.visibleProjects scope).length

/-- The number of registries of projects that are seen, a part of which is in a state. -/
def registryCount (s : Store) (scope : Scope) (part : Part) (state : SyncState) : Nat :=
  (s.registries.rows.filter fun r =>
    r.1.1 = scope.nodeId && (r.2.part part).state == state.word &&
      (s.projects.get? r.1.2).any fun p => s.sees scope p.namespaceId).length

/-- The large object is used by a project that is seen. -/
def seesLfsObject (s : Store) (scope : Scope) (id : Int) : Bool :=
  !scope.restricted || s.lfsLinks.rows.any fun r =>
    r.1.1 = id && (s.projects.get? r.1.2).any fun p =>
      s.ownsNamespace scope.nodeId p.namespaceId

/-- The upload belongs to a project or a namespace that is seen. -/
def seesUpload (s : Store) (scope : Scope) (u : NewUpload) : Bool :=
  !scope.restricted ||
    match u.modelType with
    | .project => (s.projects.get? u.modelId).any fun p =>
      s.ownsNamespace scope.nodeId p.namespaceId
    | .group => s.ownsNamespace scope.nodeId u.modelId
    | .user => false

/-- The files of a class that are seen. -/
def visibleFiles (s : Store) (scope : Scope) : FileClass → List Int
  | .lfsObjects => (s.lfsObjects.rows.filter fun r => s.seesLfsObject scope r.1).map Prod.fst
  | .attachments => (s.uploads.rows.filter fun r => s.seesUpload scope r.2.upload).map Prod.fst

/-- The node has a copy of the file, under some kind of the class. -/
def hasCopy (s : Store) (nodeId : Int) (c : FileClass) (fileId : Int) : Bool :=
  c.types.any fun t => s.copies.contains (nodeId, t, fileId)

/-- The node has failed to copy the file, under some kind of the class. -/
def hasFailure (s : Store) (nodeId : Int) (c : FileClass) (fileId : Int) : Bool :=
  c.types.any fun t => s.failures.contains (nodeId, t, fileId)

/-- The numbers of files of a class. -/
def fileCounts (s : Store) (scope : Scope) (c : FileClass) : FileCounts :=
  let files := s.visibleFiles scope c
  { total := files.length
    synced := (files.filter fun id => s.hasCopy scope.nodeId c id).length
    failed := (files.filter fun id =>
      s.hasFailure scope.nodeId c id && !s.hasCopy scope.nodeId c id).length }

/-- The number of projects that are seen. -/
def countProjects (scope : Scope) : Action Nat := .read fun s => .ok (s.projectCount scope)

/-- The number of registries in a state. -/
def countRegistries (scope : Scope) (part : Part) (state : SyncState) : Action Nat :=
  .read fun s => .ok (s.registryCount scope part state)

/-- The numbers of files of a class. -/
def countFiles (scope : Scope) (c : FileClass) : Action FileCounts :=
  .read fun s => .ok (s.fileCounts scope c)

end Store

end GeoReplication
