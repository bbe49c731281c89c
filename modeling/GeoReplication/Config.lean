import GeoReplication.Error
import GeoReplication.Path

/-!
# Config — settings of an installation

`Config` steers replication and can be refused by `Config.validate`; `Installation` says where the
program listens and keeps its data.
-/

namespace GeoReplication

/-- What can be switched off. -/
structure Features where
  /-- wikis are selected and fetched -/
  wikiSync : Bool
  /-- nodes copy only the namespaces they list -/
  namespaceRestrictions : Bool
  /-- projects updated since their last copy are copied again -/
  dirtyRefresh : Bool
deriving DecidableEq, Repr

/-- Everything on. -/
def Features.all : Features := ⟨true, true, true⟩

/-- How replication runs. -/
structure Config where
  /-- a database for replication is at hand -/
  databaseConfigured : Bool
  /-- candidates looked up at a time -/
  batchSize : Nat
  leaseTimeoutSeconds : Nat
  maxRunTimeSeconds : Nat
  /-- pause between two rounds of a tick -/
  pacingMillis : Nat
  mirrorTimeoutSeconds : Nat
  schedulerIntervalSeconds : Nat
  /-- events taken from the log at a time -/
  eventBatchSize : Nat
  /-- storage names and where they lie, sorted by name -/
  storages : List (String × String)
  features : Features
deriving DecidableEq, Repr

namespace Config

/-- The settings where nothing is said. -/
def standard : Config where
  databaseConfigured := true
  batchSize := 1000
  leaseTimeoutSeconds := 3600
  maxRunTimeSeconds := 3600
  pacingMillis := 1000
  mirrorTimeoutSeconds := 10800
  schedulerIntervalSeconds := 60
  eventBatchSize := 500
  storages := []
  features := .all

/-- Refuses settings under which nothing would ever happen. -/
def validate (c : Config) : Except Error Unit :=
  if c.batchSize = 0 then .error (.config "db_retrieve_batch_size must be positive")
  else if c.eventBatchSize = 0 then .error (.config "event_batch_size must be positive")
  else if c.leaseTimeoutSeconds = 0 then .error (.config "lease_timeout_secs must be positive")
  else .ok ()

/-- The storage used where none is named. -/
def defaultStorage : String := "default"

/-- The storages; where none is named, a single one in the data directory. -/
def storagePaths (c : Config) (dataDir : String) : List (String × String) :=
  if c.storages.isEmpty then [(defaultStorage, Path.join dataDir "repositories")] else c.storages

/-- How long a lease lasts. -/
def leaseTimeoutMillis (c : Config) : Nat := c.leaseTimeoutSeconds * 1000

end Config

/-- Where the program listens and keeps its data. -/
structure Installation where
  host : String
  port : Nat
  dataDir : String
  /-- the URL under which it is registered, if it is not that of the socket -/
  nodeUrl : Option String
deriving DecidableEq, Repr

namespace Installation

/-- The settings where nothing is said. -/
def standard : Installation := ⟨"127.0.0.1", 8080, "./data", none⟩

/-- The database. -/
def databasePath (i : Installation) : String := Path.join i.dataDir "geosync.db"

/-- Host and port. -/
def socketText (i : Installation) : String := i.host ++ ":" ++ Text.decimal i.port

/-- The URL under which the installation looks for itself. -/
def currentUrl (i : Installation) : String :=
  i.nodeUrl.getD ("http://" ++ i.socketText ++ "/")

end Installation

end GeoReplication
