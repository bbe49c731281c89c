import GeoReplication.Model.Project
import GeoReplication.Wire.Field

/-!
# Wire/Project — namespaces and projects as records
-/

namespace GeoReplication

open GeoReplication.Json GeoReplication.Wire

namespace Part

/-- A part as a record holds it. -/
def json (p : Part) : Json := .string p.word

/-- Reads a part. -/
def decode : Decoder Part := Doc.asWord ofWord?

end Part

namespace Namespace

/-- The record; a parent only where there is one. -/
def json (n : Namespace) : Json :=
  .object ([("id", .int n.id), ("name", .string n.name)] ++
    member? "parent_id" .int n.parentId ++ [("created_at", time n.createdAt)])

/-- The fields in order. -/
def record : RecordReader Namespace :=
  Namespace.mk <$> .field "id" Doc.asId <*> .field "name" Doc.asString
    <*> .optionalField "parent_id" Doc.asId <*> .field "created_at" Doc.asInstant

end Namespace

namespace Project

/-- The record; times and size only where there are any. -/
def json (p : Project) : Json :=
  .object ([("id", .int p.id), ("namespace_id", .int p.namespaceId), ("name", .string p.name),
      ("disk_path", .string p.diskPath), ("repository_storage", .string p.repositoryStorage),
      ("wiki_enabled", .bool p.wikiEnabled)] ++
    member? "last_repository_updated_at" time p.lastRepositoryUpdatedAt ++
    member? "last_wiki_updated_at" time p.lastWikiUpdatedAt ++
    member? "repository_size_bytes" .int p.repositorySizeBytes ++
    [("created_at", time p.createdAt)])

/-- The fields in order. -/
def record : RecordReader Project :=
  Project.mk <$> .field "id" Doc.asId <*> .field "namespace_id" Doc.asId
    <*> .field "name" Doc.asString <*> .field "disk_path" Doc.asString
    <*> .field "repository_storage" Doc.asString <*> .field "wiki_enabled" Doc.asBool
    <*> .optionalField "last_repository_updated_at" Doc.asInstant
    <*> .optionalField "last_wiki_updated_at" Doc.asInstant
    <*> .optionalField "repository_size_bytes" Doc.asId
    <*> .field "created_at" Doc.asInstant

end Project

namespace NewProject

/-- The record; a missing time is `null`. -/
def json (p : NewProject) : Json :=
  .object [("namespace_id", .int p.namespaceId), ("name", .string p.name),
    ("disk_path", .string p.diskPath), ("repository_storage", .string p.repositoryStorage),
    ("wiki_enabled", .bool p.wikiEnabled),
    ("last_repository_updated_at", .optional time p.lastRepositoryUpdatedAt)]

/-- The fields in order. -/
def record : RecordReader NewProject :=
  NewProject.mk <$> .field "namespace_id" Doc.asId <*> .field "name" Doc.asString
    <*> .field "disk_path" Doc.asString <*> .field "repository_storage" Doc.asString
    <*> .field "wiki_enabled" Doc.asBool
    <*> .optionalFieldOr "last_repository_updated_at" Doc.asInstant

end NewProject

end GeoReplication
