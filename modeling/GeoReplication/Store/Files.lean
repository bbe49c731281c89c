import GeoReplication.Store.Basic

/-!
# Store/Files — copies of single files
-/

namespace GeoReplication.Store

open GeoReplication.Time

/-- Records a copied file; an earlier copy is overwritten and an earlier failure forgotten. -/
def recordFileSynced (f : FileCopy) : Action Unit :=
  .statement fun s =>
    let key := (f.nodeId, f.fileType, f.fileId)
    if s.copies.contains key || s.nodes.contains f.nodeId then
      .ok ((), { s with
        copies := s.copies.upsert key ⟨f.bytes, f.sha256, f.createdAt.stored⟩
          fun row => { row with bytes := f.bytes, sha256 := f.sha256 }
        failures := s.failures.erase key })
    else .error .danglingReference

/-- Records a file that could not be copied. -/
def recordFileFailure (now : Instant) (nodeId : Int) (fileType : FileType) (fileId : Int)
    (reason : String) : Action Unit :=
  .statement fun s =>
    let key := (nodeId, fileType, fileId)
    if s.failures.contains key || s.nodes.contains nodeId then
      .ok ((), { s with
        failures := s.failures.upsert key ⟨1, reason, now.stored⟩
          fun row => ⟨row.retryCount + 1, reason, now.stored⟩ })
    else .error .danglingReference

end GeoReplication.Store
