import GeoReplication.Json.Decode
import GeoReplication.Store.Basic

/-!
# Wire/Column — single columns of stored rows

A column is written by its name, whatever the value means: this is how values come into the store
that no operation would write, and that later cannot be read.  Only columns that no key and no
reference depends on can be written.
-/

namespace GeoReplication

open GeoReplication.Json

/-- Columns that rows are chosen by, with their values. -/
abbrev Wanted := List (String × Int)

/-- A row has the wanted values. -/
def Wanted.holds (wanted : Wanted) (columns : List (String × Int)) : Bool :=
  wanted.all fun (name, value) => columns.lookup name == some value

/-- A text, or nothing for `null`. -/
def textOrNull? (value : Doc) : Option (Option String) :=
  (Doc.asOptional Doc.asString value).toOption

namespace PartRow

/-- The row with one column written. -/
def write? (column : String) (value : Doc) (r : PartRow) : Option PartRow :=
  match column with
  | "state" => value.asString.toOption.map fun v => { r with state := v }
  | "last_synced_at" => (textOrNull? value).map fun v => { r with syncedAt := v }
  | "last_successful_sync_at" => (textOrNull? value).map fun v => { r with successfulAt := v }
  | "retry_count" => value.asId.toOption.map fun v => { r with retryCount := v }
  | "last_failure" => (textOrNull? value).map fun v => { r with failure := v }
  | "resync_requested_at" => (textOrNull? value).map fun v => { r with resyncAt := v }
  | _ => none

end PartRow

namespace RegistryRow

/-- The row with one column written. -/
def write? (column : String) (value : Doc) (r : RegistryRow) : Option RegistryRow :=
  let after (mark : String) : Option String :=
    (Text.dropMark? mark.toList column.toList).map String.ofList
  match after "repository_", after "wiki_" with
  | some rest, _ => (r.repository.write? rest value).map fun p => { r with repository := p }
  | none, some rest => (r.wiki.write? rest value).map fun p => { r with wiki := p }
  | none, none =>
    if column = "created_at" then value.asString.toOption.map fun v => { r with createdAt := v }
    else none

end RegistryRow

namespace ProjectRow

/-- The row with one column written. -/
def write? (column : String) (value : Doc) (r : ProjectRow) : Option ProjectRow :=
  match column with
  | "repository_size_bytes" =>
    (Doc.asOptional Doc.asId value).toOption.map fun v => { r with sizeBytes := v }
  | "last_repository_updated_at" =>
    (textOrNull? value).map fun v => { r with repositoryUpdatedAt := v }
  | "last_wiki_updated_at" => (textOrNull? value).map fun v => { r with wikiUpdatedAt := v }
  | _ => none

end ProjectRow

namespace NodeRow

/-- The row with one column written. -/
def write? (column : String) (value : Doc) (r : NodeRow) : Option NodeRow :=
  match column with
  | "repos_max_capacity" => value.asId.toOption.map fun v => { r with reposMaxCapacity := v }
  | "files_max_capacity" => value.asId.toOption.map fun v => { r with filesMaxCapacity := v }
  | _ => none

end NodeRow

namespace EventRow

/-- The row with one column written. -/
def write? (column : String) (value : Doc) (r : EventRow) : Option EventRow :=
  match column with
  | "event_type" => value.asString.toOption.map fun v => { r with eventType := v }
  | "source" => (textOrNull? value).map fun v => { r with source := v }
  | "project_id" => value.asId.toOption.map fun v => { r with projectId := v }
  | "created_at" => value.asString.toOption.map fun v => { r with createdAt := v }
  | _ => none

end EventRow

namespace Store

/-- The store with one column written in the rows that have the wanted values, and their number. A
value that does not fit the column leaves its row as it is. -/
def writeColumn? (s : Store) (table column : String) (wanted : Wanted) (value : Doc) :
    Option (Nat × Store) :=
  match table with
  | "projects" =>
    let hit (id : Int) (r : ProjectRow) : Bool :=
      wanted.holds [("id", id), ("namespace_id", r.namespaceId)]
    some ((s.projects.rows.filter fun r => hit r.1 r.2).length,
      { s with projects := s.projects.change hit fun r => (r.write? column value).getD r })
  | "geo_nodes" =>
    let hit (id : Int) (_ : NodeRow) : Bool := wanted.holds [("id", id)]
    some ((s.nodes.rows.filter fun r => hit r.1 r.2).length,
      { s with nodes := s.nodes.change hit fun r => (r.write? column value).getD r })
  | "geo_project_registry" =>
    let hit (key : Int × Int) (_ : RegistryRow) : Bool :=
      wanted.holds [("node_id", key.1), ("project_id", key.2)]
    some ((s.registries.rows.filter fun r => hit r.1 r.2).length,
      { s with registries := s.registries.change hit fun r => (r.write? column value).getD r })
  | "geo_event_log" =>
    let hit (id : Int) (r : EventRow) : Bool :=
      wanted.holds [("id", id), ("project_id", r.projectId)]
    some ((s.events.rows.filter fun r => hit r.1 r.2).length,
      { s with events := s.events.change hit fun r => (r.write? column value).getD r })
  | "geo_event_log_states" =>
    let hit (nodeId eventId : Int) : Bool :=
      wanted.holds [("node_id", nodeId), ("event_id", eventId)]
    some ((s.cursors.rows.filter fun r => hit r.1 r.2).length,
      { s with cursors := s.cursors.change hit fun old => value.asId.toOption.getD old })
  | "geo_heartbeats" =>
    if s.heartbeat.isSome && wanted.holds [("id", 1)] then
      some (1, { s with heartbeat := value.asString.toOption.or s.heartbeat })
    else some (0, s)
  | _ => none

end Store

end GeoReplication
