import GeoReplication.Json.Codec
import GeoReplication.Json.Reader
import GeoReplication.Json.Writer
import GeoReplication.Store.Basic

/-!
# Store/Snapshot — a database as a text

`Store.snapshot` writes all tables of a database into one text, `Store.ofSnapshot?` reads them.  A
snapshot is read only if keys are unique and numbers ascend, so what is read is a database again;
what was written is read back as it was (`codec.read_write`).
-/

namespace GeoReplication

open GeoReplication.Json

/-! ## Rows -/

namespace NamespaceRow

/-- How a namespace is kept. -/
def codec : Codec NamespaceRow :=
  (Codec.string.pair (Codec.int.optional.pair .string)).iso
    (fun (name, parentId, createdAt) => ⟨name, parentId, createdAt⟩)
    (fun r => (r.name, r.parentId, r.createdAt)) fun _ => rfl

end NamespaceRow

namespace ProjectRow

/-- How a project is kept. -/
def codec : Codec ProjectRow :=
  (Codec.int.pair (Codec.string.pair (Codec.string.pair (Codec.string.pair (Codec.bool.pair
    (Codec.string.optional.pair (Codec.string.optional.pair
      (Codec.int.optional.pair .string)))))))).iso
    (fun (namespaceId, name, diskPath, storage, wiki, repositoryAt, wikiAt, size, createdAt) =>
      ⟨namespaceId, name, diskPath, storage, wiki, repositoryAt, wikiAt, size, createdAt⟩)
    (fun r => (r.namespaceId, r.name, r.diskPath, r.storage, r.wikiEnabled, r.repositoryUpdatedAt,
      r.wikiUpdatedAt, r.sizeBytes, r.createdAt)) fun _ => rfl

end ProjectRow

namespace AddressRow

/-- How an address is kept. -/
def codec : Codec AddressRow :=
  (Codec.string.pair (Codec.string.pair (Codec.int.pair .string))).iso
    (fun (scheme, host, port, root) => ⟨scheme, host, port, root⟩)
    (fun a => (a.scheme, a.host, a.port, a.root)) fun _ => rfl

end AddressRow

namespace NodeRow

/-- How a node is kept. -/
def codec : Codec NodeRow :=
  (AddressRow.codec.pair (Codec.bool.pair (Codec.bool.pair (Codec.int.pair (Codec.int.pair
    (Codec.string.pair .string)))))).iso
    (fun (address, primary, enabled, repos, files, createdAt, updatedAt) =>
      ⟨address, primary, enabled, repos, files, createdAt, updatedAt⟩)
    (fun r => (r.address, r.primary, r.enabled, r.reposMaxCapacity, r.filesMaxCapacity,
      r.createdAt, r.updatedAt)) fun _ => rfl

end NodeRow

namespace PartRow

/-- How one half of a registry is kept. -/
def codec : Codec PartRow :=
  (Codec.string.pair (Codec.string.optional.pair (Codec.string.optional.pair (Codec.int.pair
    (Codec.string.optional.pair Codec.string.optional))))).iso
    (fun (state, syncedAt, successfulAt, retries, failure, resyncAt) =>
      ⟨state, syncedAt, successfulAt, retries, failure, resyncAt⟩)
    (fun r => (r.state, r.syncedAt, r.successfulAt, r.retryCount, r.failure, r.resyncAt))
    fun _ => rfl

end PartRow

namespace RegistryRow

/-- How a registry is kept. -/
def codec : Codec RegistryRow :=
  (PartRow.codec.pair (PartRow.codec.pair .string)).iso
    (fun (repository, wiki, createdAt) => ⟨repository, wiki, createdAt⟩)
    (fun r => (r.repository, r.wiki, r.createdAt)) fun _ => rfl

end RegistryRow

namespace UploadRow

/-- How what an upload belongs to is kept. -/
def modelCodec : Codec UploadModel :=
  .word UploadModel.word UploadModel.ofWord? UploadModel.ofWord?_word

/-- How an upload is kept. -/
def codec : Codec UploadRow :=
  (modelCodec.pair (Codec.int.pair (Codec.string.pair (Codec.string.pair
    (Codec.int.pair .string))))).iso
    (fun (model, modelId, uploader, path, size, createdAt) =>
      ⟨⟨model, modelId, uploader, path, size⟩, createdAt⟩)
    (fun r => (r.upload.modelType, r.upload.modelId, r.upload.uploader, r.upload.path,
      r.upload.size, r.createdAt)) fun _ => rfl

end UploadRow

namespace LfsObjectRow

/-- How a large object is kept. -/
def codec : Codec LfsObjectRow :=
  (Codec.string.pair (Codec.int.pair .string)).iso
    (fun (oid, size, createdAt) => ⟨oid, size, createdAt⟩)
    (fun r => (r.oid, r.size, r.createdAt)) fun _ => rfl

end LfsObjectRow

namespace CopyRow

/-- How a copied file is kept. -/
def codec : Codec CopyRow :=
  (Codec.int.pair (Codec.string.optional.pair .string)).iso
    (fun (bytes, sha256, createdAt) => ⟨bytes, sha256, createdAt⟩)
    (fun r => (r.bytes, r.sha256, r.createdAt)) fun _ => rfl

end CopyRow

namespace FailureRow

/-- How a file that could not be copied is kept. -/
def codec : Codec FailureRow :=
  (Codec.int.pair (Codec.string.pair .string)).iso
    (fun (retries, reason, attemptedAt) => ⟨retries, reason, attemptedAt⟩)
    (fun r => (r.retryCount, r.reason, r.attemptedAt)) fun _ => rfl

end FailureRow

namespace EventRow

/-- How an event is kept. -/
def codec : Codec EventRow :=
  (Codec.string.pair (Codec.int.pair (Codec.string.optional.pair .string))).iso
    (fun (eventType, projectId, source, createdAt) => ⟨eventType, projectId, source, createdAt⟩)
    (fun r => (r.eventType, r.projectId, r.source, r.createdAt)) fun _ => rfl

end EventRow

namespace LeaseRow

/-- How a lease is kept. -/
def codec : Codec LeaseRow :=
  (Codec.string.pair .string).iso (fun (holder, expiresAt) => ⟨holder, expiresAt⟩)
    (fun r => (r.holder, r.expiresAt)) fun _ => rfl

end LeaseRow

/-! ## Tables -/

namespace Store

/-- How a table is kept: its rows, which have to have different keys. -/
def Table.codec {κ α : Type} [DecidableEq κ] (key : Codec κ) (row : Codec α) : Codec (Table κ α) :=
  ((key.pair row).list.refine fun rows => (rows.map Prod.fst).Nodup).iso
    (fun t => ⟨t.1, t.2⟩) (fun t => ⟨t.rows, t.nodup⟩) fun _ => rfl

/-- How a table with numbered rows is kept: the last number handed out, and the rows in their order.
-/
def Numbered.codec {α : Type} (row : Codec α) : Codec (Numbered α) :=
  ((Codec.nat.pair (Codec.int.pair row).list).refine fun t =>
    (t.2.map Prod.fst).Pairwise (· < ·) ∧ ∀ r ∈ t.2, 0 < r.1 ∧ r.1 ≤ t.1).iso
    (fun t => ⟨t.1.2, t.1.1, t.2.1, t.2.2⟩)
    (fun t => ⟨(t.last, t.rows), t.ascending, t.bounded⟩) fun _ => rfl

/-- How a pair of ids is kept. -/
def idsCodec : Codec (Int × Int) := Codec.int.pair .int

/-- How the key of a file is kept: node, kind and file. -/
def fileCodec : Codec (Int × FileType × Int) :=
  Codec.int.pair ((Codec.word FileType.word FileType.ofWord? FileType.ofWord?_word).pair .int)

/-- How a database is kept. -/
def codec : Codec Store :=
  ((Numbered.codec NamespaceRow.codec).pair ((Numbered.codec ProjectRow.codec).pair
    ((Numbered.codec NodeRow.codec).pair ((Table.codec idsCodec .unit).pair
      ((Table.codec idsCodec RegistryRow.codec).pair ((Numbered.codec UploadRow.codec).pair
        ((Numbered.codec LfsObjectRow.codec).pair ((Table.codec idsCodec .unit).pair
          ((Table.codec fileCodec CopyRow.codec).pair ((Table.codec fileCodec FailureRow.codec).pair
            ((Numbered.codec EventRow.codec).pair ((Table.codec .int .int).pair
              ((Table.codec .string LeaseRow.codec).pair
                Codec.string.optional))))))))))))).iso
    (fun (namespaces, projects, nodes, links, registries, uploads, lfsObjects, lfsLinks, copies,
        failures, events, cursors, leases, heartbeat) =>
      ⟨namespaces, projects, nodes, links, registries, uploads, lfsObjects, lfsLinks, copies,
        failures, events, cursors, leases, heartbeat⟩)
    (fun s => (s.namespaces, s.projects, s.nodes, s.links, s.registries, s.uploads, s.lfsObjects,
      s.lfsLinks, s.copies, s.failures, s.events, s.cursors, s.leases, s.heartbeat)) fun _ => rfl

/-- The database as a text. -/
def snapshot (s : Store) : String := (codec.write s).text

/-- The database in a text. -/
def ofSnapshot? (text : String) : Option Store := codec.read (Document.read text).value

end Store

end GeoReplication
