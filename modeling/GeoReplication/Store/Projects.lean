import GeoReplication.Store.Basic

/-!
# Store/Projects — namespaces, projects, uploads and large objects
-/

namespace GeoReplication.Store

open GeoReplication.Time

/-! ## Namespaces -/

/-- A new namespace below an existing one, or below itself: its own number counts as existing. -/
def createNamespace (now : Instant) (name : String) (parentId : Option Int) : Action Namespace :=
  .statement fun s =>
    let id := s.namespaces.next
    if parentId.any fun parent => parent ≠ id && !s.namespaces.contains parent then
      .error .danglingReference
    else
      .ok (⟨id, name, parentId, now⟩,
        { s with namespaces := s.namespaces.insert ⟨name, parentId, now.stored⟩ })

/-- The namespace with a number. -/
def getNamespace (now : Instant) (id : Int) : Action (Option Namespace) :=
  .read fun s => .ok ((s.namespaces.get? id).map (·.record now id))

/-! ## Projects -/

/-- The project with a number. -/
def project? (s : Store) (now : Instant) (id : Int) : Option Project :=
  (s.projects.get? id).map (·.record now id)

/-- A project more; no two share a disk path, and its namespace exists. -/
def insertProject (now : Instant) (p : NewProject) : Action Int :=
  .statement fun s =>
    if s.projects.rows.any fun (_, row) => row.diskPath == p.diskPath then .error .alreadyExists
    else if !s.namespaces.contains p.namespaceId then .error .danglingReference
    else
      .ok (s.projects.next, { s with
        projects := s.projects.insert {
          namespaceId := p.namespaceId
          name := p.name
          diskPath := p.diskPath
          storage := p.repositoryStorage
          wikiEnabled := p.wikiEnabled
          repositoryUpdatedAt := p.lastRepositoryUpdatedAt.map Instant.stored
          wikiUpdatedAt := none
          sizeBytes := none
          createdAt := now.stored } })

/-- A new project, as it is stored. -/
def createProject (now : Instant) (p : NewProject) : Action Project := do
  let id ← insertProject now p
  .read fun s =>
    match s.project? now id with
    | some p => .ok p
    | none => .error .notFound

/-- The project with a number. -/
def getProject (now : Instant) (id : Int) : Action (Option Project) :=
  .read fun s => .ok (s.project? now id)

/-- Removes a project with its registries and the links of large objects to it. -/
def deleteProject (id : Int) : Action Bool :=
  .statement fun s =>
    .ok (s.projects.contains id, { s with
      projects := s.projects.erase id
      registries := s.registries.filter fun (_, project) _ => project ≠ id
      lfsLinks := s.lfsLinks.filter fun (_, project) _ => project ≠ id })

/-- Notes that a part of a project was updated at `time`. -/
def touchProject (id : Int) (part : Part) (time : Instant) : Action Unit :=
  .statement fun s =>
    if s.projects.contains id then
      .ok ((), { s with projects := s.projects.modify id (·.touch time.stored part) })
    else .error .notFound

/-- Forgets the measured size of a repository. -/
def expireRepositoryCache (id : Int) : Action Unit :=
  .statement fun s =>
    .ok ((), { s with projects := s.projects.modify id fun row => { row with sizeBytes := none } })

/-! ## Uploads and large objects -/

/-- A new upload. -/
def createUpload (now : Instant) (u : NewUpload) : Action Upload :=
  .statement fun s =>
    .ok (⟨s.uploads.next, u.modelType, u.modelId, u.uploader, u.path, u.size, now⟩,
      { s with uploads := s.uploads.insert ⟨u, now.stored⟩ })

/-- A new large object; no two share an object id. -/
def createLfsObject (now : Instant) (oid : String) (size : Int) : Action LfsObject :=
  .statement fun s =>
    if s.lfsObjects.rows.any fun (_, row) => row.oid == oid then .error .alreadyExists
    else
      .ok (⟨s.lfsObjects.next, oid, size, now⟩,
        { s with lfsObjects := s.lfsObjects.insert ⟨oid, size, now.stored⟩ })

/-- Notes that a project uses a large object; both exist. -/
def linkLfsObject (lfsObjectId projectId : Int) : Action Unit :=
  .statement fun s =>
    if s.lfsLinks.contains (lfsObjectId, projectId) then .ok ((), s)
    else if s.lfsObjects.contains lfsObjectId && s.projects.contains projectId then
      .ok ((), { s with lfsLinks := s.lfsLinks.insert (lfsObjectId, projectId) () })
    else .error .danglingReference

end GeoReplication.Store
