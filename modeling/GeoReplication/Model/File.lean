import GeoReplication.Time.Instant

/-!
# Model/File — uploads, large objects and the copies of them

Files are replicated one by one.  An upload belongs to a project, a namespace or a user; a large
object is linked to the projects that use it.
-/

namespace GeoReplication

open GeoReplication.Time

/-- The kinds of file a copy is recorded under. -/
inductive FileType where
  | lfs
  | attachment
  | avatar
  | file
deriving DecidableEq, Repr, Inhabited

namespace FileType

/-- The word for a kind of file. -/
def word : FileType → String
  | lfs => "lfs"
  | attachment => "attachment"
  | avatar => "avatar"
  | file => "file"

/-- The kind of file a word stands for. -/
def ofWord? (s : String) : Option FileType :=
  if s = "lfs" then some lfs
  else if s = "attachment" then some attachment
  else if s = "avatar" then some avatar
  else if s = "file" then some file
  else none

/-- The kinds that are recorded for uploads. -/
def uploads : List FileType := [attachment, avatar, file]

@[simp] theorem ofWord?_word (t : FileType) : ofWord? t.word = some t := by cases t <;> decide

end FileType

/-- A file a node has copied. -/
structure FileCopy where
  nodeId : Int
  fileType : FileType
  fileId : Int
  bytes : Int
  sha256 : Option String
  createdAt : Instant
deriving DecidableEq, Repr

/-- What an upload belongs to. -/
inductive UploadModel where
  | project
  | group
  | user
deriving DecidableEq, Repr, Inhabited

namespace UploadModel

/-- The word for what an upload belongs to. -/
def word : UploadModel → String
  | project => "Project"
  | group => "Namespace"
  | user => "User"

/-- What a word stands for. -/
def ofWord? (s : String) : Option UploadModel :=
  if s = "Project" then some project
  else if s = "Namespace" then some group
  else if s = "User" then some user
  else none

@[simp] theorem ofWord?_word (m : UploadModel) : ofWord? m.word = some m := by cases m <;> decide

end UploadModel

/-- An uploaded file. -/
structure Upload where
  id : Int
  modelType : UploadModel
  modelId : Int
  uploader : String
  path : String
  size : Int
  createdAt : Instant
deriving DecidableEq, Repr

/-- An upload to be created. -/
structure NewUpload where
  modelType : UploadModel
  modelId : Int
  uploader : String
  path : String
  size : Int
deriving DecidableEq, Repr

/-- A large object. -/
structure LfsObject where
  id : Int
  oid : String
  size : Int
  createdAt : Instant
deriving DecidableEq, Repr

end GeoReplication
