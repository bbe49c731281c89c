import GeoReplication.Proofs.Store.Candidates
import GeoReplication.Proofs.Store.Counts
import GeoReplication.Proofs.Store.Cursors

/-!
# Proofs/Store/FileHistory — the counts of files, read off what was recorded

    synced a, failed a, failed b  ──▸  copy of a, failures of a and b  ──▸  1 synced, 1 failed

A copy stays until its node goes, and a failure until a copy takes its place.  So a file has a copy
exactly if one was recorded (`contains_copies_afterCalls`), and one that was never copied has a
failure exactly if one was recorded (`contains_failures_afterCalls`).  The counts look no further:
which records there were decides them, and neither their order nor how often they came
(`file_counts_of_records`).
-/

namespace GeoReplication

open GeoReplication.Time

/-! ## What an operation records of a file -/

namespace Call

/-- The operation records a copy under a key. -/
def syncsFile (key : Int × FileType × Int) : Call → Bool
  | recordFileSynced f => decide (key = (f.nodeId, f.fileType, f.fileId))
  | _ => false

/-- The operation records a failure under a key. -/
def missesFile (key : Int × FileType × Int) : Call → Bool
  | recordFileFailure nodeId fileType fileId _ => decide (key = (nodeId, fileType, fileId))
  | _ => false

/-- The operation records what became of some file at the node. -/
def recordsFile (nodeId : Int) : Call → Bool
  | recordFileSynced f => decide (f.nodeId = nodeId)
  | recordFileFailure nodeId' _ _ _ => decide (nodeId' = nodeId)
  | _ => false

/-- The operation records what became of one of the files, under some kind of the class. -/
def Concerns (nodeId : Int) (c : FileClass) (files : List Int) (call : Call) : Prop :=
  ∃ t ∈ c.types, ∃ id ∈ files,
    call.syncsFile (nodeId, t, id) = true ∨ call.missesFile (nodeId, t, id) = true

end Call

namespace Store

variable {s s' : Store} {now : Instant} {c : Call} {key : Int × FileType × Int} {nodeId : Int}

theorem run_recordFileSynced (now : Instant) (f : FileCopy) (s : Store) : ∃ new change,
    ((Call.recordFileSynced f).run now s).2 =
      if s.copies.contains (f.nodeId, f.fileType, f.fileId) || s.nodes.contains f.nodeId then
        { s with
          copies := s.copies.upsert (f.nodeId, f.fileType, f.fileId) new change
          failures := s.failures.erase (f.nodeId, f.fileType, f.fileId) }
      else s := by
  refine ⟨⟨f.bytes, f.sha256, f.createdAt.stored⟩,
    fun row => { row with bytes := f.bytes, sha256 := f.sha256 },
    (Call.snd_lift (recordFileSynced f) s).trans ?_⟩
  rw [recordFileSynced, Action.run_statement]
  dsimp only
  by_cases hknown : (s.copies.contains (f.nodeId, f.fileType, f.fileId) ||
      s.nodes.contains f.nodeId) = true
  · rw [if_pos hknown, if_pos hknown]
  · rw [if_neg hknown, if_neg hknown]

theorem run_recordFileFailure (now : Instant) (nodeId : Int) (fileType : FileType) (fileId : Int)
    (reason : String) (s : Store) : ∃ new change,
    ((Call.recordFileFailure nodeId fileType fileId reason).run now s).2 =
      if s.failures.contains (nodeId, fileType, fileId) || s.nodes.contains nodeId then
        { s with failures := s.failures.upsert (nodeId, fileType, fileId) new change }
      else s := by
  refine ⟨⟨1, reason, now.stored⟩, fun row => ⟨row.retryCount + 1, reason, now.stored⟩,
    (Call.snd_lift (recordFileFailure now nodeId fileType fileId reason) s).trans ?_⟩
  rw [recordFileFailure, Action.run_statement]
  dsimp only
  by_cases hknown : (s.failures.contains (nodeId, fileType, fileId) ||
      s.nodes.contains nodeId) = true
  · rw [if_pos hknown, if_pos hknown]
  · rw [if_neg hknown, if_neg hknown]

/-- **Copies come by being recorded**, and stay as long as their node does. -/
theorem contains_copies_run (hnode : s.nodes.contains key.1 = true) (hc : c ≠ .deleteNode key.1) :
    (c.run now s).2.copies.contains key = true ↔
      s.copies.contains key = true ∨ c.syncsFile key = true := by
  by_cases hplace : .copies ∈ c.writes
  · cases c with
    | recordFileSynced f =>
      obtain ⟨new, change, hrun⟩ := run_recordFileSynced now f s
      rw [hrun, Call.syncsFile, decide_eq_true_iff]
      split
      · exact Table.contains_upsert
      · next hunknown =>
        refine (or_iff_left ?_).symm
        rintro rfl
        exact hunknown (Bool.or_eq_true_iff.mpr (.inr hnode))
    | deleteNode id =>
      have hid : key.1 ≠ id := fun h => hc (by rw [h])
      exact Table.contains_filter_ne.trans
        ⟨fun h => .inl h.1, fun h => ⟨h.resolve_right Bool.false_ne_true, hid⟩⟩
    | _ => exact absurd hplace (by simp [Call.writes])
  · have hsame : (c.run now s).2.copies = s.copies := c.sameBut_run now s .copies hplace
    have hother : c.syncsFile key = false := by
      cases c <;> first | rfl | exact absurd (by simp [Call.writes]) hplace
    rw [hsame, hother]
    exact (or_iff_left Bool.false_ne_true).symm

/-- **Failures come by being recorded**, and stay until a copy is recorded in their place. -/
theorem contains_failures_run (hnode : s.nodes.contains key.1 = true)
    (hc : c ≠ .deleteNode key.1) :
    (c.run now s).2.failures.contains key = true ↔
      s.failures.contains key = true ∧ c.syncsFile key = false ∨ c.missesFile key = true := by
  by_cases hplace : .failures ∈ c.writes
  · cases c with
    | recordFileSynced f =>
      obtain ⟨new, change, hrun⟩ := run_recordFileSynced now f s
      have hmisses : (Call.recordFileSynced f).missesFile key = false := rfl
      rw [hrun, Call.syncsFile, decide_eq_false_iff_not, hmisses, or_iff_left Bool.false_ne_true]
      split
      · exact Table.contains_erase
      · next hunknown =>
        refine (and_iff_left ?_).symm
        rintro rfl
        exact hunknown (Bool.or_eq_true_iff.mpr (.inr hnode))
    | recordFileFailure nodeId fileType fileId reason =>
      obtain ⟨new, change, hrun⟩ := run_recordFileFailure now nodeId fileType fileId reason s
      have hsyncs : (Call.recordFileFailure nodeId fileType fileId reason).syncsFile key = false :=
        rfl
      rw [hrun, Call.missesFile, decide_eq_true_iff, hsyncs, and_iff_left rfl]
      split
      · exact Table.contains_upsert
      · next hunknown =>
        refine (or_iff_left ?_).symm
        rintro rfl
        exact hunknown (Bool.or_eq_true_iff.mpr (.inr hnode))
    | deleteNode id =>
      have hid : key.1 ≠ id := fun h => hc (by rw [h])
      exact Table.contains_filter_ne.trans
        ⟨fun h => .inl ⟨h.1, rfl⟩, fun h => ⟨(h.resolve_right Bool.false_ne_true).1, hid⟩⟩
    | _ => exact absurd hplace (by simp [Call.writes])
  · have hsame : (c.run now s).2.failures = s.failures := c.sameBut_run now s .failures hplace
    have hother : c.syncsFile key = false ∧ c.missesFile key = false := by
      cases c <;> first | exact ⟨rfl, rfl⟩ | exact absurd (by simp [Call.writes]) hplace
    rw [hsame, hother.1, hother.2, and_iff_left rfl]
    exact (or_iff_left Bool.false_ne_true).symm

/-! ## Sequences of operations -/

/-- The store after operations at given times, one after another. -/
def afterCalls (s : Store) : List (Instant × Call) → Store
  | [] => s
  | (now, c) :: calls => (c.run now s).2.afterCalls calls

variable {calls calls' : List (Instant × Call)}

/-- **A file has a copy** exactly if it had one or one was recorded. -/
theorem contains_copies_afterCalls (key : Int × FileType × Int)
    (hnode : s.nodes.contains key.1 = true) (hstays : ∀ d ∈ calls, d.2 ≠ .deleteNode key.1) :
    (s.afterCalls calls).copies.contains key = true ↔
      s.copies.contains key = true ∨ ∃ d ∈ calls, d.2.syncsFile key = true := by
  induction calls generalizing s with
  | nil => simp [afterCalls]
  | cons d calls ih =>
    obtain ⟨hd, hstays⟩ := List.forall_mem_cons.mp hstays
    rw [afterCalls, ih (contains_node_run hd d.1 hnode) hstays, contains_copies_run hnode hd,
      or_assoc, List.exists_mem_cons_iff]

/-- **A file that was never copied has a failure** exactly if it had one or one was recorded. -/
theorem contains_failures_afterCalls (key : Int × FileType × Int)
    (hnode : s.nodes.contains key.1 = true) (hstays : ∀ d ∈ calls, d.2 ≠ .deleteNode key.1)
    (hnever : ∀ d ∈ calls, d.2.syncsFile key = false) :
    (s.afterCalls calls).failures.contains key = true ↔
      s.failures.contains key = true ∨ ∃ d ∈ calls, d.2.missesFile key = true := by
  induction calls generalizing s with
  | nil => simp [afterCalls]
  | cons d calls ih =>
    obtain ⟨hd, hstays⟩ := List.forall_mem_cons.mp hstays
    obtain ⟨hsync, hnever⟩ := List.forall_mem_cons.mp hnever
    rw [afterCalls, ih (contains_node_run hd d.1 hnode) hstays hnever,
      contains_failures_run hnode hd, hsync, and_iff_left rfl, or_assoc, List.exists_mem_cons_iff]

/-! ## Counts -/

/-- A copy of the file was recorded at the node, under some kind of the class. -/
def wasSynced (calls : List (Instant × Call)) (nodeId : Int) (c : FileClass) (id : Int) : Bool :=
  c.types.any fun t => calls.any fun d => d.2.syncsFile (nodeId, t, id)

/-- A failure to copy the file was recorded at the node, under some kind of the class. -/
def wasMissed (calls : List (Instant × Call)) (nodeId : Int) (c : FileClass) (id : Int) : Bool :=
  c.types.any fun t => calls.any fun d => d.2.missesFile (nodeId, t, id)

/-- Nothing is recorded of files at the node. -/
def HasNoFiles (s : Store) (nodeId : Int) : Prop :=
  ∀ t id, s.copies.contains (nodeId, t, id) = false ∧ s.failures.contains (nodeId, t, id) = false

theorem hasCopy_afterCalls (hnode : s.nodes.contains nodeId = true) (hnone : s.HasNoFiles nodeId)
    (hstays : ∀ d ∈ calls, d.2 ≠ .deleteNode nodeId) (c : FileClass) (id : Int) :
    (s.afterCalls calls).hasCopy nodeId c id = wasSynced calls nodeId c id := by
  refine congrArg c.types.any (funext fun t => Bool.eq_iff_iff.mpr ?_)
  rw [contains_copies_afterCalls (nodeId, t, id) hnode hstays, (hnone t id).1,
    List.any_eq_true]
  exact or_iff_right Bool.false_ne_true

/-- Of the files without a copy, those have failed of which a failure was recorded. -/
theorem hasFailure_afterCalls (hnode : s.nodes.contains nodeId = true)
    (hnone : s.HasNoFiles nodeId) (hstays : ∀ d ∈ calls, d.2 ≠ .deleteNode nodeId) (c : FileClass)
    (id : Int) :
    ((s.afterCalls calls).hasFailure nodeId c id && !(s.afterCalls calls).hasCopy nodeId c id) =
      (wasMissed calls nodeId c id && !wasSynced calls nodeId c id) := by
  rw [hasCopy_afterCalls hnode hnone hstays]
  cases hsynced : wasSynced calls nodeId c id with
  | true => rw [Bool.not_true, Bool.and_false, Bool.and_false]
  | false =>
    rw [Bool.not_false, Bool.and_true, Bool.and_true, hasFailure, wasMissed, Bool.eq_iff_iff,
      List.any_eq_true, List.any_eq_true]
    refine exists_congr fun t => and_congr_right fun ht => ?_
    have hnever : ∀ d ∈ calls, d.2.syncsFile (nodeId, t, id) = false := fun d hd =>
      Bool.eq_false_iff.mpr (List.any_eq_false.mp
        (Bool.eq_false_iff.mpr (List.any_eq_false.mp hsynced t ht)) d hd)
    rw [contains_failures_afterCalls (nodeId, t, id) hnode hstays hnever, (hnone t id).2,
      List.any_eq_true]
    exact or_iff_right Bool.false_ne_true

theorem ne_deleteNode_of_recordsFile (hrecords : ∀ d ∈ calls, d.2.recordsFile nodeId = true) :
    ∀ d ∈ calls, d.2 ≠ .deleteNode nodeId := by
  intro d hd hdelete
  have hrecord := hrecords d hd
  rw [hdelete] at hrecord
  cases hrecord

/-- Records of files change nothing but copies and failures. -/
theorem sameBut_afterCalls (hrecords : ∀ d ∈ calls, d.2.recordsFile nodeId = true) :
    SameBut [.copies, .failures] s (s.afterCalls calls) := by
  induction calls generalizing s with
  | nil => exact refl_of _ s
  | cons d calls ih =>
    obtain ⟨hd, hrest⟩ := List.forall_mem_cons.mp hrecords
    obtain ⟨now, c⟩ := d
    refine trans_of _ (fun p hp => c.sameBut_run now s p fun hwrites => hp ?_) (ih hrest)
    cases c with
    | recordFileSynced f => exact hwrites
    | recordFileFailure nodeId' t id reason => exact List.mem_cons_of_mem _ hwrites
    | _ => cases hd

theorem SameBut.visibleFiles (h : SameBut [.copies, .failures] s s') (scope : Scope)
    (c : FileClass) : s'.visibleFiles scope c = s.visibleFiles scope c := by
  have hnamespaces : s'.namespaces = s.namespaces := h .namespaces (by decide)
  have hlinks : s'.links = s.links := h .links (by decide)
  have hprojects : s'.projects = s.projects := h .projects (by decide)
  have huploads : s'.uploads = s.uploads := h .uploads (by decide)
  have hlfsObjects : s'.lfsObjects = s.lfsObjects := h .lfsObjects (by decide)
  have hlfsLinks : s'.lfsLinks = s.lfsLinks := h .lfsLinks (by decide)
  have howns (id : Int) : s'.ownsNamespace scope.nodeId id = s.ownsNamespace scope.nodeId id := by
    rw [ownsNamespace, ownsNamespace, hnamespaces, reachesOwn_congr hnamespaces hlinks]
  cases c <;> simp only [Store.visibleFiles, seesLfsObject, seesUpload, howns, hprojects, huploads,
    hlfsObjects, hlfsLinks]

/-- What is looked for among operations is found wherever the same operations are. -/
theorem any_call_congr {p : Call → Bool} (h : ∀ call : Call, p call = true →
      (call ∈ calls'.map Prod.snd ↔ call ∈ calls.map Prod.snd)) :
    (calls'.any fun d => p d.2) = calls.any fun d => p d.2 := by
  have hmap (l : List (Instant × Call)) : (l.any fun d => p d.2) = (l.map Prod.snd).any p :=
    List.any_map.symm
  rw [hmap, hmap, Bool.eq_iff_iff, List.any_eq_true, List.any_eq_true]
  exact exists_congr fun call => and_congr_left (h call)

/-- Other records than those of the files do not matter for them. -/
theorem was_congr {c : FileClass} {files : List Int} {id : Int} (hid : id ∈ files)
    (h : ∀ call : Call, call.Concerns nodeId c files →
      (call ∈ calls'.map Prod.snd ↔ call ∈ calls.map Prod.snd)) :
    wasSynced calls' nodeId c id = wasSynced calls nodeId c id ∧
      wasMissed calls' nodeId c id = wasMissed calls nodeId c id := by
  constructor
  · rw [wasSynced, wasSynced, Bool.eq_iff_iff, List.any_eq_true, List.any_eq_true]
    refine exists_congr fun t => and_congr_right fun ht => ?_
    rw [any_call_congr fun call hcall => h call ⟨t, ht, id, hid, .inl hcall⟩]
  · rw [wasMissed, wasMissed, Bool.eq_iff_iff, List.any_eq_true, List.any_eq_true]
    refine exists_congr fun t => and_congr_right fun ht => ?_
    rw [any_call_congr fun call hcall => h call ⟨t, ht, id, hid, .inr hcall⟩]

/-- The counts of files, of which those that were recorded as copied are synced, and of the others
those that were recorded as missed have failed. -/
def countsRecorded (files : List Int) (calls : List (Instant × Call)) (nodeId : Int)
    (c : FileClass) : FileCounts where
  total := files.length
  synced := (files.filter fun id => wasSynced calls nodeId c id).length
  failed := (files.filter fun id =>
    wasMissed calls nodeId c id && !wasSynced calls nodeId c id).length

theorem countsRecorded_congr {c : FileClass} {files : List Int}
    (h : ∀ call : Call, call.Concerns nodeId c files →
      (call ∈ calls'.map Prod.snd ↔ call ∈ calls.map Prod.snd)) :
    countsRecorded files calls' nodeId c = countsRecorded files calls nodeId c := by
  have hsynced : (files.filter fun id => wasSynced calls' nodeId c id) =
      files.filter fun id => wasSynced calls nodeId c id :=
    List.filter_congr fun id hid => (was_congr hid h).1
  have hfailed : (files.filter fun id =>
        wasMissed calls' nodeId c id && !wasSynced calls' nodeId c id) =
      files.filter fun id => wasMissed calls nodeId c id && !wasSynced calls nodeId c id :=
    List.filter_congr fun id hid => by rw [(was_congr hid h).1, (was_congr hid h).2]
  rw [countsRecorded, countsRecorded, hsynced, hfailed]

theorem fileCounts_afterCalls (hnode : s.nodes.contains nodeId = true)
    (hnone : s.HasNoFiles nodeId) (hstays : ∀ d ∈ calls, d.2 ≠ .deleteNode nodeId)
    (restricted : Bool) (c : FileClass) :
    (s.afterCalls calls).fileCounts ⟨nodeId, restricted⟩ c =
      countsRecorded ((s.afterCalls calls).visibleFiles ⟨nodeId, restricted⟩ c) calls nodeId c := by
  rw [fileCounts, countsRecorded]
  -- a failure is looked for only where there is no copy, so failures come before copies
  simp only [hasFailure_afterCalls hnode hnone hstays]
  simp only [hasCopy_afterCalls hnode hnone hstays]

/-- **What was recorded decides the counts of files.**  For a node without file rows and any
operations but its removal, each file of a class that the node sees in the end counts once: as
synced if a copy of it was recorded under some kind of the class, else as failed if a failure was.
If the operations are all records of files at the node, any others of which the same concern files
of the class that the node sees give the same counts: in another order, repeated, or with others
left out. -/
theorem file_counts_of_records {s : Store} {nodeId : Int} {calls : List (Instant × Call)}
    (hnode : s.nodes.contains nodeId = true) (hnone : s.HasNoFiles nodeId)
    (hstays : ∀ d ∈ calls, d.2 ≠ .deleteNode nodeId) (restricted : Bool) (c : FileClass) :
    let scope : Scope := ⟨nodeId, restricted⟩
    (∀ now, (Call.countFiles scope c).run now (s.afterCalls calls) =
      (.ok (countsRecorded ((s.afterCalls calls).visibleFiles scope c) calls nodeId c),
        s.afterCalls calls)) ∧
    ((s.afterCalls calls).visibleFiles scope c).Nodup ∧
    ((∀ d ∈ calls, d.2.recordsFile nodeId = true) →
      (s.afterCalls calls).visibleFiles scope c = s.visibleFiles scope c ∧
      ∀ calls' : List (Instant × Call), (∀ d ∈ calls', d.2.recordsFile nodeId = true) →
        (∀ call : Call, call.Concerns nodeId c (s.visibleFiles scope c) →
          (call ∈ calls'.map Prod.snd ↔ call ∈ calls.map Prod.snd)) →
        ∀ now, ((Call.countFiles scope c).run now (s.afterCalls calls')).1 =
          ((Call.countFiles scope c).run now (s.afterCalls calls)).1) := by
  intro scope
  refine ⟨fun now => ?_, nodup_visibleFiles _ _ _, fun hrecords => ?_⟩
  · rw [← fileCounts_afterCalls hnode hnone hstays]
    rfl
  · have hseen := (sameBut_afterCalls (s := s) hrecords).visibleFiles scope c
    refine ⟨hseen, fun calls' hrecords' hsame now => congrArg Except.ok ?_⟩
    have hseen' := (sameBut_afterCalls (s := s) hrecords').visibleFiles scope c
    rw [fileCounts_afterCalls hnode hnone hstays,
      fileCounts_afterCalls hnode hnone (ne_deleteNode_of_recordsFile hrecords'), hseen, hseen']
    exact countsRecorded_congr hsame

/-- Three attachments and a large object, and a node that saw the second attachment fail, the first
come under two kinds after it had failed, and the third fail under the kind it had come under. -/
def recordedFiles : Store × List (Instant × Call) :=
  let calls : List Call := [.createNamespace "group" none,
    .createNode ⟨⟨"http", "secondary", 80, ""⟩, .secondary, true, [1], 1, 1⟩,
    .createProject ⟨1, "a", "group/a", "default", false, none⟩,
    .createUpload ⟨.project, 1, "AvatarUploader", "a.png", 7⟩,
    .createUpload ⟨.project, 1, "FileUploader", "b.pdf", 7⟩,
    .createUpload ⟨.group, 1, "FileUploader", "c.pdf", 7⟩,
    .createLfsObject "d0" 9, .linkLfsObject 1 1]
  let records : List Call := [.recordFileFailure 1 .file 1 "missing",
    .recordFileSynced ⟨1, .avatar, 1, 7, none, .epoch⟩,
    .recordFileFailure 1 .file 2 "missing", .recordFileFailure 1 .file 2 "missing",
    .recordFileSynced ⟨1, .attachment, 1, 7, none, .epoch⟩,
    .recordFileSynced ⟨1, .lfs, 2, 7, none, .epoch⟩,
    .recordFileSynced ⟨1, .avatar, 9, 7, none, .epoch⟩,
    .recordFileSynced ⟨1, .file, 3, 7, none, .epoch⟩,
    .recordFileFailure 1 .file 3 "truncated"]
  (calls.foldl (fun s c => (c.run .epoch s).2) .empty, records.map fun c => (.epoch, c))

theorem file_counts_of_records_reversed :
    ((Call.countFiles ⟨1, true⟩ .attachments).run .epoch
        (recordedFiles.1.afterCalls recordedFiles.2)).1 = .ok ⟨3, 2, 1⟩ ∧
    ((Call.countFiles ⟨1, true⟩ .attachments).run .epoch
        (recordedFiles.1.afterCalls recordedFiles.2.reverse)).1 = .ok ⟨3, 2, 1⟩ := by
  have hcopies : recordedFiles.1.copies.rows = [] := by decide +kernel
  have hfailures : recordedFiles.1.failures.rows = [] := by decide +kernel
  have hnone : recordedFiles.1.HasNoFiles 1 := fun t id => by
    simp [Table.contains, Table.get?, hcopies, hfailures, lookupRow]
  have hrecords : ∀ d ∈ recordedFiles.2, d.2.recordsFile 1 = true := by decide +kernel
  obtain ⟨hcount, -, hall⟩ := file_counts_of_records (by decide +kernel) hnone
    (ne_deleteNode_of_recordsFile hrecords) true .attachments
  obtain ⟨hseen, hany⟩ := hall hrecords
  have hforth : ((Call.countFiles ⟨1, true⟩ .attachments).run .epoch
      (recordedFiles.1.afterCalls recordedFiles.2)).1 = .ok ⟨3, 2, 1⟩ := by
    rw [hcount, hseen]
    decide +kernel
  refine ⟨hforth, (hany recordedFiles.2.reverse ?_ ?_ .epoch).trans hforth⟩
  · exact fun d hd => hrecords d (List.mem_reverse.mp hd)
  · exact fun call _ => by rw [List.map_reverse, List.mem_reverse]

end Store

end GeoReplication
