import GeoReplication.Config
import GeoReplication.Toml.Reader
import GeoReplication.Wire.Field

/-!
# Wire/Config — settings as records and files

Settings are read from a record, or from a configuration file with the same fields; every field may
be missing.  Storages come out sorted by name, and of two with one name the later one stands.
-/

namespace GeoReplication

open GeoReplication.Json GeoReplication.Wire

namespace Features

/-- The record. -/
def json (f : Features) : Json :=
  .object [("wiki_sync", .bool f.wikiSync),
    ("namespace_restrictions", .bool f.namespaceRestrictions),
    ("dirty_refresh", .bool f.dirtyRefresh)]

/-- The fields in order. -/
def record : RecordReader Features :=
  Features.mk <$> .fieldOr "wiki_sync" Doc.asBool true
    <*> .fieldOr "namespace_restrictions" Doc.asBool true
    <*> .fieldOr "dirty_refresh" Doc.asBool true

end Features

namespace Config

/-- A storage put where its name sorts; one of the same name gives way. -/
def insertStorage (name path : String) : List (String × String) → List (String × String)
  | [] => [(name, path)]
  | (n, p) :: rest =>
    if name < n then (name, path) :: (n, p) :: rest
    else if name = n then (name, path) :: rest
    else (n, p) :: insertStorage name path rest

/-- Storages sorted by name. -/
def sortStorages (storages : List (String × String)) : List (String × String) :=
  storages.foldl (fun sorted (name, path) => insertStorage name path sorted) []

/-- The record. -/
def json (c : Config) : Json :=
  .object [("geo_database_configured", .bool c.databaseConfigured),
    ("db_retrieve_batch_size", .nat c.batchSize),
    ("lease_timeout_secs", .nat c.leaseTimeoutSeconds),
    ("max_run_time_secs", .nat c.maxRunTimeSeconds),
    ("pacing_millis", .nat c.pacingMillis),
    ("mirror_timeout_secs", .nat c.mirrorTimeoutSeconds),
    ("scheduler_interval_secs", .nat c.schedulerIntervalSeconds),
    ("event_batch_size", .nat c.eventBatchSize),
    ("storages", .object (c.storages.map fun (name, path) => (name, .string path))),
    ("features", c.features.json)]

/-- The fields in order. -/
def record : RecordReader Config :=
  (fun configured batch lease run pacing mirror interval events storages =>
      Config.mk configured batch lease run pacing mirror interval events (sortStorages storages))
    <$> .fieldOr "geo_database_configured" Doc.asBool standard.databaseConfigured
    <*> .fieldOr "db_retrieve_batch_size" asUnsigned standard.batchSize
    <*> .fieldOr "lease_timeout_secs" asUnsigned standard.leaseTimeoutSeconds
    <*> .fieldOr "max_run_time_secs" asUnsigned standard.maxRunTimeSeconds
    <*> .fieldOr "pacing_millis" asUnsigned standard.pacingMillis
    <*> .fieldOr "mirror_timeout_secs" asUnsigned standard.mirrorTimeoutSeconds
    <*> .fieldOr "scheduler_interval_secs" asUnsigned standard.schedulerIntervalSeconds
    <*> .fieldOr "event_batch_size" asUnsigned standard.eventBatchSize
    <*> .fieldOr "storages" (Doc.asMembers Doc.asString) []
    <*> .fieldOr "features" Features.record.read .all

/-- In a configuration file the features may also be an array, of which only as many items count as
there are features. -/
def cutFeatures : List (Key × Doc) → List (Key × Doc)
  | [] => []
  | (key, value) :: rest =>
    let value := match key, value with
      | .name "features", .array items closed =>
        .array (items.take Features.record.rules.length) closed
      | _, _ => value
    (key, value) :: cutFeatures rest

/-- The settings in the text of a configuration file. -/
def parse? (text : String) : Option Config := do
  let entries ← Toml.read? text
  match record.read (.object (cutFeatures (Toml.Item.docEntries entries)) true) with
  | .ok config => some config
  | .error _ => none

/-- The settings in the configuration file at a path, refused if they are not valid. -/
def ofToml (path text : String) : Except Error Config := do
  match parse? text with
  | none => throw (.config (path ++ ": not a configuration file"))
  | some config =>
    config.validate
    return config

end Config

end GeoReplication
