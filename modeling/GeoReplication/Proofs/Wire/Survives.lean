import GeoReplication.Proofs.Json.Records
import GeoReplication.Proofs.Time.WrittenBack
import GeoReplication.Wire.Event
import GeoReplication.Wire.File
import GeoReplication.Wire.Node
import GeoReplication.Wire.Registry

/-!
# Proofs/Wire/Survives — records survive their text

    record ──json──▸ object ──text──▸ ··· ──decode──▸ the same record

A record `Fits` when every signed number lies within the bounds of its field and every time, leap
seconds included, within the years that are written with four digits; ports and capacities always
do, and texts may be anything.  Each member written is then one its field gives back, and a member
left out is one its field takes as missing, so every record comes back as it was: `records_survive`.
-/

namespace GeoReplication

open GeoReplication.Json GeoReplication.Json.RecordReader GeoReplication.Text GeoReplication.Time

namespace Wire

/-- The number fits into 64 bits. -/
def IsId (n : Int) : Prop := minId ≤ n ∧ n ≤ maxId

instance (n : Int) : Decidable (IsId n) := inferInstanceAs (Decidable (_ ∧ _))

/-- Reading the text written for `a` gives `a` back. -/
def Survives {α : Type} (json : α → Json) (r : RecordReader α) (a : α) : Prop :=
  decode r.read (json a).text = .ok a

theorem gives_id {n : Int} (h : IsId n) : Gives Doc.asId (.int n) n :=
  gives_int (by decide) (by decide) h.1 h.2

theorem gives_count {n : Int} (h : minCount ≤ n ∧ n ≤ maxCount) : Gives asCount (.int n) n :=
  gives_int (by decide) (by decide) h.1 h.2

theorem gives_capacity (n : UInt32) : Gives asCapacity (.nat n.toNat) n := by
  have hnat : Gives (Doc.asNat Node.maxCapacity) (.nat n.toNat) n.toNat :=
    gives_nat (by decide) (Nat.le_of_lt_succ n.toNat_lt)
  refine ⟨hnat.whole, ?_⟩
  rw [asCapacity, hnat.read_doc, Except.map, UInt32.ofNat_toNat]

theorem gives_port (n : UInt16) : Gives asPort (.nat n.toNat) n := by
  have hnat : Gives (Doc.asNat Address.maxPort) (.nat n.toNat) n.toNat :=
    gives_nat (by decide) (Nat.le_of_lt_succ n.toNat_lt)
  refine ⟨hnat.whole, ?_⟩
  rw [asPort, hnat.read_doc, Except.map, UInt16.ofNat_toNat]

theorem gives_time {t : Instant} (h : t.IsSortable) : Gives Doc.asInstant (time t) t :=
  ⟨.string _, by rw [time, doc, Doc.asInstant, Instant.ofWritten?_written h]⟩

end Wire

open GeoReplication.Wire

/-! ## Namespaces and projects -/

structure Namespace.Fits (n : Namespace) : Prop where
  id : IsId n.id
  parentId : ∀ id ∈ n.parentId, IsId id
  createdAt : n.createdAt.IsSortable

theorem Namespace.Fits.gives_json {n : Namespace} (h : n.Fits) :
    Gives Namespace.record.read n.json n :=
  Gathers.gives_of_eq ((gathers_field (gives_id h.id)).map _
    |>.seq (gathers_field (gives_string _))
    |>.seq (gathers_member? rfl fun id hid => gives_id (h.parentId id hid))
    |>.seq (gathers_field (gives_time h.createdAt))) (by decide) rfl rfl

structure Project.Fits (p : Project) : Prop where
  id : IsId p.id
  namespaceId : IsId p.namespaceId
  lastRepositoryUpdatedAt : ∀ t ∈ p.lastRepositoryUpdatedAt, t.IsSortable
  lastWikiUpdatedAt : ∀ t ∈ p.lastWikiUpdatedAt, t.IsSortable
  repositorySizeBytes : ∀ size ∈ p.repositorySizeBytes, IsId size
  createdAt : p.createdAt.IsSortable

theorem Project.Fits.gives_json {p : Project} (h : p.Fits) :
    Gives Project.record.read p.json p :=
  Gathers.gives_of_eq ((gathers_field (gives_id h.id)).map _
    |>.seq (gathers_field (gives_id h.namespaceId))
    |>.seq (gathers_field (gives_string _))
    |>.seq (gathers_field (gives_string _))
    |>.seq (gathers_field (gives_string _))
    |>.seq (gathers_field (gives_bool _))
    |>.seq (gathers_member? rfl fun t ht => gives_time (h.lastRepositoryUpdatedAt t ht))
    |>.seq (gathers_member? rfl fun t ht => gives_time (h.lastWikiUpdatedAt t ht))
    |>.seq (gathers_member? rfl fun size hsize => gives_id (h.repositorySizeBytes size hsize))
    |>.seq (gathers_field (gives_time h.createdAt))) (by decide) rfl rfl

structure NewProject.Fits (p : NewProject) : Prop where
  namespaceId : IsId p.namespaceId
  lastRepositoryUpdatedAt : ∀ t ∈ p.lastRepositoryUpdatedAt, t.IsSortable

theorem NewProject.Fits.gives_json {p : NewProject} (h : p.Fits) :
    Gives NewProject.record.read p.json p :=
  Gathers.gives_of_eq ((gathers_field (gives_id h.namespaceId)).map _
    |>.seq (gathers_field (gives_string _))
    |>.seq (gathers_field (gives_string _))
    |>.seq (gathers_field (gives_string _))
    |>.seq (gathers_field (gives_bool _))
    |>.seq (gathers_field (gives_optional rfl fun t ht =>
      gives_time (h.lastRepositoryUpdatedAt t ht)))) (by decide) rfl rfl

/-! ## Nodes -/

structure Node.Fits (n : Node) : Prop where
  id : IsId n.id
  namespaceIds : ∀ id ∈ n.namespaceIds, IsId id
  createdAt : n.createdAt.IsSortable
  updatedAt : n.updatedAt.IsSortable

theorem Node.Fits.gives_json {n : Node} (h : n.Fits) :
    Gives Node.record.read n.json n :=
  Gathers.gives_of_eq ((gathers_field (gives_id h.id)).map _
    |>.seq (gathers_field (gives_string _))
    |>.seq (gathers_field (gives_string _))
    |>.seq (gathers_field (gives_port _))
    |>.seq (gathers_field (gives_string _))
    |>.seq (gathers_field (gives_word (NodeRole.ofWord?_word _)))
    |>.seq (gathers_field (gives_bool _))
    |>.seq (gathers_field (gives_list fun id hid => gives_id (h.namespaceIds id hid)))
    |>.seq (gathers_field (gives_capacity _))
    |>.seq (gathers_field (gives_capacity _))
    |>.seq (gathers_field (gives_time h.createdAt))
    |>.seq (gathers_field (gives_time h.updatedAt))) (by decide) rfl rfl

structure NewNode.Fits (n : NewNode) : Prop where
  namespaceIds : ∀ id ∈ n.namespaceIds, IsId id

theorem NewNode.Fits.gives_json {n : NewNode} (h : n.Fits) :
    Gives NewNode.record.read n.json n :=
  Gathers.gives_of_eq ((gathers_field (gives_string _)).map _
    |>.seq (gathers_field (gives_string _))
    |>.seq (gathers_field (gives_port _))
    |>.seq (gathers_field (gives_string _))
    |>.seq (gathers_field (gives_word (NodeRole.ofWord?_word _)))
    |>.seq (gathers_field (gives_bool _))
    |>.seq (gathers_field (gives_list fun id hid => gives_id (h.namespaceIds id hid)))
    |>.seq (gathers_field (gives_capacity _))
    |>.seq (gathers_field (gives_capacity _))) (by decide) rfl rfl

/-! ## Registries -/

structure SyncRecord.Fits (r : SyncRecord) : Prop where
  lastSyncedAt : ∀ t ∈ r.lastSyncedAt, t.IsSortable
  lastSuccessfulSyncAt : ∀ t ∈ r.lastSuccessfulSyncAt, t.IsSortable
  retryCount : minCount ≤ r.retryCount ∧ r.retryCount ≤ maxCount

theorem SyncRecord.Fits.gives_json {r : SyncRecord} (h : r.Fits) :
    Gives SyncRecord.record.read r.json r :=
  Gathers.gives_of_eq ((gathers_field (gives_word (SyncState.ofWord?_word _))).map _
    |>.seq (gathers_member? rfl fun t ht => gives_time (h.lastSyncedAt t ht))
    |>.seq (gathers_member? rfl fun t ht => gives_time (h.lastSuccessfulSyncAt t ht))
    |>.seq (gathers_field (gives_count h.retryCount))
    |>.seq (gathers_member? rfl fun s _ => gives_string s)
    |>.seq (gathers_field (gives_bool _))) (by decide) rfl rfl

structure Registry.Fits (r : Registry) : Prop where
  nodeId : IsId r.nodeId
  projectId : IsId r.projectId
  repository : r.repository.Fits
  wiki : r.wiki.Fits
  createdAt : r.createdAt.IsSortable

theorem Registry.Fits.gives_json {r : Registry} (h : r.Fits) :
    Gives Registry.fields.read r.json r :=
  Gathers.gives_of_eq ((gathers_field (gives_id h.nodeId)).map _
    |>.seq (gathers_field (gives_id h.projectId))
    |>.seq (gathers_field h.repository.gives_json)
    |>.seq (gathers_field h.wiki.gives_json)
    |>.seq (gathers_field (gives_time h.createdAt))) (by decide) rfl rfl

/-! ## Files -/

structure FileCopy.Fits (f : FileCopy) : Prop where
  nodeId : IsId f.nodeId
  fileId : IsId f.fileId
  bytes : IsId f.bytes
  createdAt : f.createdAt.IsSortable

theorem FileCopy.Fits.gives_json {f : FileCopy} (h : f.Fits) :
    Gives FileCopy.record.read f.json f :=
  Gathers.gives_of_eq ((gathers_field (gives_id h.nodeId)).map _
    |>.seq (gathers_field (gives_word (FileType.ofWord?_word _)))
    |>.seq (gathers_field (gives_id h.fileId))
    |>.seq (gathers_field (gives_id h.bytes))
    |>.seq (gathers_member? rfl fun s _ => gives_string s)
    |>.seq (gathers_field (gives_time h.createdAt))) (by decide) rfl rfl

structure Upload.Fits (u : Upload) : Prop where
  id : IsId u.id
  modelId : IsId u.modelId
  size : IsId u.size
  createdAt : u.createdAt.IsSortable

theorem Upload.Fits.gives_json {u : Upload} (h : u.Fits) :
    Gives Upload.record.read u.json u :=
  Gathers.gives_of_eq ((gathers_field (gives_id h.id)).map _
    |>.seq (gathers_field (gives_word (UploadModel.ofWord?_word _)))
    |>.seq (gathers_field (gives_id h.modelId))
    |>.seq (gathers_field (gives_string _))
    |>.seq (gathers_field (gives_string _))
    |>.seq (gathers_field (gives_id h.size))
    |>.seq (gathers_field (gives_time h.createdAt))) (by decide) rfl rfl

structure NewUpload.Fits (u : NewUpload) : Prop where
  modelId : IsId u.modelId
  size : IsId u.size

theorem NewUpload.Fits.gives_json {u : NewUpload} (h : u.Fits) :
    Gives NewUpload.record.read u.json u :=
  Gathers.gives_of_eq ((gathers_field (gives_word (UploadModel.ofWord?_word _))).map _
    |>.seq (gathers_field (gives_id h.modelId))
    |>.seq (gathers_field (gives_string _))
    |>.seq (gathers_field (gives_string _))
    |>.seq (gathers_field (gives_id h.size))) (by decide) rfl rfl

structure LfsObject.Fits (o : LfsObject) : Prop where
  id : IsId o.id
  size : IsId o.size
  createdAt : o.createdAt.IsSortable

theorem LfsObject.Fits.gives_json {o : LfsObject} (h : o.Fits) :
    Gives LfsObject.record.read o.json o :=
  Gathers.gives_of_eq ((gathers_field (gives_id h.id)).map _
    |>.seq (gathers_field (gives_string _))
    |>.seq (gathers_field (gives_id h.size))
    |>.seq (gathers_field (gives_time h.createdAt))) (by decide) rfl rfl

/-! ## Events -/

structure NewEvent.Fits (e : NewEvent) : Prop where
  projectId : IsId e.projectId

theorem NewEvent.Fits.gives_json {e : NewEvent} (h : e.Fits) :
    Gives NewEvent.record.read e.json e :=
  Gathers.gives_of_eq ((gathers_field (gives_word (EventType.ofWord?_word _))).map _
    |>.seq (gathers_field (gives_id h.projectId))
    |>.seq (gathers_member? rfl fun p _ => gives_word (Part.ofWord?_word p))) (by decide) rfl rfl

structure Event.Fits (e : Event) : Prop where
  id : IsId e.id
  projectId : IsId e.projectId
  createdAt : e.createdAt.IsSortable

theorem Event.Fits.gives_json {e : Event} (h : e.Fits) :
    Gives Event.record.read e.json e :=
  Gathers.gives_of_eq ((gathers_field (gives_id h.id)).map _
    |>.seq (gathers_field (gives_word (EventType.ofWord?_word _)))
    |>.seq (gathers_field (gives_id h.projectId))
    |>.seq (gathers_member? rfl fun p _ => gives_word (Part.ofWord?_word p))
    |>.seq (gathers_field (gives_time h.createdAt))) (by decide) rfl rfl

structure EventCursor.Fits (c : EventCursor) : Prop where
  nodeId : IsId c.nodeId
  eventId : IsId c.eventId

theorem EventCursor.Fits.gives_json {c : EventCursor} (h : c.Fits) :
    Gives EventCursor.record.read c.json c :=
  Gathers.gives_of_eq ((gathers_field (gives_id h.nodeId)).map _
    |>.seq (gathers_field (gives_id h.eventId))) (by decide) rfl rfl

/-! ## All of them -/

namespace Wire

/-- **Every record survives its text**, whatever its texts are and whatever it leaves out. -/
theorem records_survive :
    (∀ n : Namespace, n.Fits → Survives Namespace.json Namespace.record n) ∧
    (∀ p : Project, p.Fits → Survives Project.json Project.record p) ∧
    (∀ p : NewProject, p.Fits → Survives NewProject.json NewProject.record p) ∧
    (∀ n : Node, n.Fits → Survives Node.json Node.record n) ∧
    (∀ n : NewNode, n.Fits → Survives NewNode.json NewNode.record n) ∧
    (∀ r : SyncRecord, r.Fits → Survives SyncRecord.json SyncRecord.record r) ∧
    (∀ r : Registry, r.Fits → Survives Registry.json Registry.fields r) ∧
    (∀ f : FileCopy, f.Fits → Survives FileCopy.json FileCopy.record f) ∧
    (∀ u : Upload, u.Fits → Survives Upload.json Upload.record u) ∧
    (∀ u : NewUpload, u.Fits → Survives NewUpload.json NewUpload.record u) ∧
    (∀ o : LfsObject, o.Fits → Survives LfsObject.json LfsObject.record o) ∧
    (∀ e : NewEvent, e.Fits → Survives NewEvent.json NewEvent.record e) ∧
    (∀ e : Event, e.Fits → Survives Event.json Event.record e) ∧
    (∀ c : EventCursor, c.Fits → Survives EventCursor.json EventCursor.record c) :=
  ⟨fun _ h => h.gives_json.decode_text, fun _ h => h.gives_json.decode_text,
    fun _ h => h.gives_json.decode_text, fun _ h => h.gives_json.decode_text,
    fun _ h => h.gives_json.decode_text, fun _ h => h.gives_json.decode_text,
    fun _ h => h.gives_json.decode_text, fun _ h => h.gives_json.decode_text,
    fun _ h => h.gives_json.decode_text, fun _ h => h.gives_json.decode_text,
    fun _ h => h.gives_json.decode_text, fun _ h => h.gives_json.decode_text,
    fun _ h => h.gives_json.decode_text, fun _ h => h.gives_json.decode_text⟩

theorem records_survive_odd_texts :
    Survives Namespace.json Namespace.record
      ⟨minId, "a\"b\\c\n\x00", some maxId, ⟨1709251199, 120000001⟩⟩ ∧
    Survives Project.json Project.record
      ⟨1, -2, "", "a/b", "default", true, some ⟨1709251199, 120000000⟩, none, some 0, .epoch⟩ ∧
    Survives NewProject.json NewProject.record ⟨-2, "\x7f", "é", "\t", false, none⟩ ∧
    Survives Node.json Node.record
      ⟨1, ⟨"https", "[::1]", 65535, "/"⟩, .secondary, true, [7, -7], 0, 4294967295, .epoch,
        ⟨1709251199, 999999999⟩⟩ ∧
    Survives NewNode.json NewNode.record ⟨⟨"http", "", 0, ""⟩, .primary, false, [], 25, 10⟩ ∧
    Survives SyncRecord.json SyncRecord.record
      ⟨.syncFailed, some .epoch, none, minCount, some "\x08\x0c\x1f\"", true⟩ ∧
    Survives Registry.json Registry.fields
      ⟨1, 2, ⟨.synced, none, some .epoch, 0, none, false⟩,
        ⟨.neverSynced, none, none, maxCount, some "", true⟩, .epoch⟩ ∧
    Survives FileCopy.json FileCopy.record ⟨1, .avatar, 2, 3, none, .epoch⟩ ∧
    Survives Upload.json Upload.record ⟨1, .group, 2, "\\", "/", 3, .epoch⟩ ∧
    Survives NewUpload.json NewUpload.record ⟨.user, 2, "\"\"", "\r\n", 3⟩ ∧
    Survives LfsObject.json LfsObject.record ⟨1, "\\u0000", 0, .epoch⟩ ∧
    Survives NewEvent.json NewEvent.record ⟨.updated, 1, some .wiki⟩ ∧
    Survives Event.json Event.record ⟨1, .deleted, 2, none, .epoch⟩ ∧
    Survives EventCursor.json EventCursor.record ⟨maxId, minId⟩ := by
  obtain ⟨hnamespace, hproject, hnewProject, hnode, hnewNode, hsync, hregistry, hcopy, hupload,
    hnewUpload, hobject, hnewEvent, hevent, hcursor⟩ := records_survive
  exact ⟨hnamespace _ ⟨by decide, by decide, by decide⟩,
    hproject _ ⟨by decide, by decide, by decide, by decide, by decide, by decide⟩,
    hnewProject _ ⟨by decide, by decide⟩,
    hnode _ ⟨by decide, by decide, by decide, by decide⟩,
    hnewNode _ ⟨by decide⟩,
    hsync _ ⟨by decide, by decide, by decide⟩,
    hregistry _ ⟨by decide, by decide, ⟨by decide, by decide, by decide⟩,
      ⟨by decide, by decide, by decide⟩, by decide⟩,
    hcopy _ ⟨by decide, by decide, by decide, by decide⟩,
    hupload _ ⟨by decide, by decide, by decide, by decide⟩,
    hnewUpload _ ⟨by decide, by decide⟩,
    hobject _ ⟨by decide, by decide, by decide⟩,
    hnewEvent _ ⟨by decide⟩,
    hevent _ ⟨by decide, by decide, by decide⟩,
    hcursor _ ⟨by decide, by decide⟩⟩

end Wire

end GeoReplication
