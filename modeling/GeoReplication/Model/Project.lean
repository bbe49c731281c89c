import GeoReplication.Time.Instant

/-!
# Model/Project — namespaces, projects and their two parts

A project lives in a namespace and has a repository and, if enabled, a wiki: two parts replicated
independently of each other.
-/

namespace GeoReplication

open GeoReplication.Time

/-- A group of projects; groups may nest. -/
structure Namespace where
  id : Int
  name : String
  parentId : Option Int
  createdAt : Instant
deriving DecidableEq, Repr

/-- A project. -/
structure Project where
  id : Int
  namespaceId : Int
  name : String
  /-- path of the repository below its storage, without suffix -/
  diskPath : String
  repositoryStorage : String
  wikiEnabled : Bool
  lastRepositoryUpdatedAt : Option Instant
  lastWikiUpdatedAt : Option Instant
  /-- size on disk as last measured; none once it is stale -/
  repositorySizeBytes : Option Int
  createdAt : Instant
deriving DecidableEq, Repr

/-- A project to be created. -/
structure NewProject where
  namespaceId : Int
  name : String
  diskPath : String
  repositoryStorage : String
  wikiEnabled : Bool
  lastRepositoryUpdatedAt : Option Instant
deriving DecidableEq, Repr

/-- The parts of a project that are replicated. -/
inductive Part where
  | repository
  | wiki
deriving DecidableEq, Repr, Inhabited

namespace Part

/-- The word for a part. -/
def word : Part → String
  | repository => "repository"
  | wiki => "wiki"

/-- The part a word stands for. -/
def ofWord? (s : String) : Option Part :=
  if s = "repository" then some repository
  else if s = "wiki" then some wiki
  else none

/-- What follows the disk path of a project. -/
def pathSuffix : Part → String
  | repository => ".git"
  | wiki => ".wiki.git"

@[simp] theorem ofWord?_word (p : Part) : ofWord? p.word = some p := by cases p <;> decide

end Part

end GeoReplication
