import GeoReplication.Store.Call

/-!
# Wire/Call — the names of the operations of the store
-/

namespace GeoReplication.Call.Kind

/-- The operation of a name. -/
def ofWord? : String → Option Call.Kind
  | "initialize" => some .prepare
  | "ping" => some .ping
  | "create_namespace" => some .createNamespace
  | "get_namespace" => some .getNamespace
  | "create_project" => some .createProject
  | "get_project" => some .getProject
  | "delete_project" => some .deleteProject
  | "touch_project" => some .touchProject
  | "expire_repository_cache" => some .expireRepositoryCache
  | "create_upload" => some .createUpload
  | "create_lfs_object" => some .createLfsObject
  | "link_lfs_object" => some .linkLfsObject
  | "create_node" => some .createNode
  | "get_node" => some .getNode
  | "find_node_by_url" => some .findNodeByUrl
  | "get_primary_node" => some .getPrimaryNode
  | "list_nodes" => some .listNodes
  | "update_node" => some .updateNode
  | "delete_node" => some .deleteNode
  | "get_project_registry" => some .getRegistry
  | "record_sync_success" => some .recordSyncSuccess
  | "record_sync_failure" => some .recordSyncFailure
  | "request_resync" => some .requestResync
  | "delete_project_registry" => some .deleteRegistry
  | "find_unsynced_projects" => some .findUnsynced
  | "find_failed_projects" => some .findFailed
  | "find_dirty_projects" => some .findDirty
  | "count_projects" => some .countProjects
  | "count_registries" => some .countRegistries
  | "count_files" => some .countFiles
  | "record_file_synced" => some .recordFileSynced
  | "record_file_failure" => some .recordFileFailure
  | "append_event" => some .appendEvent
  | "get_event" => some .getEvent
  | "last_event" => some .lastEvent
  | "list_events_after" => some .listEventsAfter
  | "get_event_log_state" => some .getCursor
  | "advance_event_cursor" => some .advanceCursor
  | "try_obtain_lease" => some .obtainLease
  | "renew_lease" => some .renewLease
  | "release_lease" => some .releaseLease
  | "write_heartbeat" => some .writeHeartbeat
  | "last_heartbeat" => some .lastHeartbeat
  | _ => none

end GeoReplication.Call.Kind
