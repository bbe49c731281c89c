import GeoReplication.Model.File
import GeoReplication.Wire.Field

/-!
# Wire/File — uploads, large objects and copies as records
-/

namespace GeoReplication

open GeoReplication.Json GeoReplication.Wire

namespace FileType

/-- A kind of file as a record holds it. -/
def json (t : FileType) : Json := .string t.word

/-- Reads a kind of file. -/
def decode : Decoder FileType := Doc.asWord ofWord?

end FileType

namespace UploadModel

/-- What an upload belongs to, as a record holds it. -/
def json (m : UploadModel) : Json := .string m.word

/-- Reads what an upload belongs to. -/
def decode : Decoder UploadModel := Doc.asWord ofWord?

end UploadModel

namespace FileCopy

/-- The record; a checksum only where there is one. -/
def json (f : FileCopy) : Json :=
  .object ([("node_id", .int f.nodeId), ("file_type", f.fileType.json), ("file_id", .int f.fileId),
      ("bytes", .int f.bytes)] ++
    member? "sha256" .string f.sha256 ++ [("created_at", time f.createdAt)])

/-- The fields in order. -/
def record : RecordReader FileCopy :=
  FileCopy.mk <$> .field "node_id" Doc.asId <*> .field "file_type" FileType.decode
    <*> .field "file_id" Doc.asId <*> .field "bytes" Doc.asId
    <*> .optionalField "sha256" Doc.asString <*> .field "created_at" Doc.asInstant

end FileCopy

namespace Upload

/-- The record. -/
def json (u : Upload) : Json :=
  .object [("id", .int u.id), ("model_type", u.modelType.json), ("model_id", .int u.modelId),
    ("uploader", .string u.uploader), ("path", .string u.path), ("size", .int u.size),
    ("created_at", time u.createdAt)]

/-- The fields in order. -/
def record : RecordReader Upload :=
  Upload.mk <$> .field "id" Doc.asId <*> .field "model_type" UploadModel.decode
    <*> .field "model_id" Doc.asId <*> .field "uploader" Doc.asString
    <*> .field "path" Doc.asString <*> .field "size" Doc.asId <*> .field "created_at" Doc.asInstant

end Upload

namespace NewUpload

/-- The record. -/
def json (u : NewUpload) : Json :=
  .object [("model_type", u.modelType.json), ("model_id", .int u.modelId),
    ("uploader", .string u.uploader), ("path", .string u.path), ("size", .int u.size)]

/-- The fields in order. -/
def record : RecordReader NewUpload :=
  NewUpload.mk <$> .field "model_type" UploadModel.decode <*> .field "model_id" Doc.asId
    <*> .field "uploader" Doc.asString <*> .field "path" Doc.asString <*> .field "size" Doc.asId

end NewUpload

namespace LfsObject

/-- The record. -/
def json (o : LfsObject) : Json :=
  .object [("id", .int o.id), ("oid", .string o.oid), ("size", .int o.size),
    ("created_at", time o.createdAt)]

/-- The fields in order. -/
def record : RecordReader LfsObject :=
  LfsObject.mk <$> .field "id" Doc.asId <*> .field "oid" Doc.asString <*> .field "size" Doc.asId
    <*> .field "created_at" Doc.asInstant

end LfsObject

end GeoReplication
