import GeoReplication.Proofs.Store.Reached
import Mathlib.Data.List.Nodup
import Mathlib.Data.List.Perm.Subperm

/-!
# Proofs/Store/Counts — the numbers of the status, counted along what is seen

    projects seen  =  synced  ⊎  failed  ⊎  unsettled
    files seen     ⊇  synced  ⊎  failed

Registries are counted in a table of their own, through the projects they point at.  A node has at
most one of them for a project, so counting projects by the state of their registry gives the same
number (`registryCount_eq`), and in a sound store a registry is in one of three states.
-/

namespace GeoReplication

namespace Store

variable {s : Store} {scope : Scope}

/-! ## Repositories -/

/-- The node has a registry for the project, a part of which is in a state. -/
def isIn (s : Store) (nodeId : Int) (part : Part) (state : SyncState) (projectId : Int) : Bool :=
  (s.registries.get? (nodeId, projectId)).any fun row => (row.part part).state == state.word

/-- The node has no registry for the project, or one whose repository was never attempted. -/
def isUnsettled (s : Store) (nodeId projectId : Int) : Bool :=
  match s.registries.get? (nodeId, projectId) with
  | none => true
  | some row => row.repository.state == SyncState.neverSynced.word

/-- The projects that are seen and unsettled. -/
def unsettled (s : Store) (scope : Scope) : List (Int × ProjectRow) :=
  (s.visibleProjects scope).filter fun r => s.isUnsettled scope.nodeId r.1

theorem isIn_iff {nodeId projectId : Int} {part : Part} {state : SyncState} :
    s.isIn nodeId part state projectId = true ↔
      ∃ row, s.registries.get? (nodeId, projectId) = some row ∧
        (row.part part).state = state.word := by
  rw [isIn, Option.any_eq_true]
  simp only [beq_iff_eq]

/-- **Registries are counted as projects are.**  Each project that is seen is counted by its only
registry for the node, if that is in the state. -/
theorem registryCount_eq (s : Store) (scope : Scope) (part : Part) (state : SyncState) :
    s.registryCount scope part state =
      (s.visibleProjects scope).countP fun r => s.isIn scope.nodeId part state r.1 := by
  -- both count numbers of projects, none twice, so it is enough that they count the same ones
  rw [registryCount, List.countP_eq_length_filter,
    ← List.length_map (fun r : (Int × Int) × RegistryRow => r.1.2),
    ← List.length_map (fun r : Int × ProjectRow => r.1)]
  refine List.Perm.length_eq ((List.perm_ext_iff_of_nodup ?_ ?_).mpr fun id => ?_)
  · rw [← Function.comp_def Prod.snd Prod.fst, ← List.map_map]
    refine List.Nodup.map_on ?_ (s.registries.nodup.sublist (List.filter_sublist.map _))
    intro key hkey key' hkey' hid
    obtain ⟨r, hr, rfl⟩ := List.mem_map.mp hkey
    obtain ⟨r', hr', rfl⟩ := List.mem_map.mp hkey'
    simp only [List.mem_filter, Bool.and_eq_true, decide_eq_true_eq] at hr hr'
    exact Prod.ext (hr.2.1.1.trans hr'.2.1.1.symm) hid
  · exact s.projects.nodup.sublist ((List.filter_sublist.trans List.filter_sublist).map _)
  · simp only [List.mem_map, List.mem_filter, Bool.and_eq_true, decide_eq_true_eq, beq_iff_eq,
      Option.any_eq_true, visibleProjects, isIn_iff]
    constructor
    · rintro ⟨⟨⟨nodeId, projectId⟩, row⟩, ⟨hrow, ⟨rfl, hstate⟩, p, hp, hseen⟩, rfl⟩
      exact ⟨(projectId, p), ⟨⟨Numbered.get?_eq_some_iff.mp hp, hseen⟩, row,
        Table.get?_eq_some_iff.mpr hrow, hstate⟩, rfl⟩
    · rintro ⟨⟨projectId, p⟩, ⟨⟨hp, hseen⟩, row, hrow, hstate⟩, rfl⟩
      exact ⟨((scope.nodeId, projectId), row), ⟨Table.get?_eq_some_iff.mp hrow, ⟨rfl, hstate⟩, p,
        Numbered.get?_eq_some_iff.mpr hp, hseen⟩, rfl⟩

/-- A project is counted once: as synced, as failed, or among the unsettled. -/
theorem Sound.isIn_add (h : s.Sound) (nodeId projectId : Int) :
    (if s.isIn nodeId .repository .synced projectId then 1 else 0) +
      (if s.isIn nodeId .repository .syncFailed projectId then 1 else 0) +
      (if s.isUnsettled nodeId projectId then 1 else 0) = 1 := by
  rw [isIn, isIn, isUnsettled]
  cases hrow : s.registries.get? (nodeId, projectId) with
  | none => rfl
  | some row =>
    dsimp only [Option.any_some, RegistryRow.part]
    rcases h.rows _ row hrow .repository with ⟨-, hstate, -⟩ | ⟨-, hstate, -⟩ | ⟨-, hstate⟩ <;>
    · rw [RegistryRow.part] at hstate
      simp only [hstate]
      decide

/-- **Projects seen are synced, failed or unsettled.** -/
theorem Sound.projectCount_eq (h : s.Sound) (scope : Scope) :
    s.projectCount scope = s.registryCount scope .repository .synced +
      s.registryCount scope .repository .syncFailed + (s.unsettled scope).length := by
  rw [projectCount, registryCount_eq, registryCount_eq, unsettled, ← List.countP_eq_length_filter]
  induction s.visibleProjects scope with
  | nil => rfl
  | cons r rs ih =>
    have hone := h.isIn_add scope.nodeId r.1
    rw [List.length_cons, List.countP_cons, List.countP_cons, List.countP_cons]
    omega

/-! ## Files -/

/-- The files of a class that are seen and of which the node has a copy. -/
def syncedFiles (s : Store) (scope : Scope) (c : FileClass) : List Int :=
  (s.visibleFiles scope c).filter fun id => s.hasCopy scope.nodeId c id

/-- The files of a class that are seen and that the node has failed to copy, and not copied. -/
def failedFiles (s : Store) (scope : Scope) (c : FileClass) : List Int :=
  (s.visibleFiles scope c).filter fun id =>
    s.hasFailure scope.nodeId c id && !s.hasCopy scope.nodeId c id

/-- A file that is seen is listed once. -/
theorem nodup_visibleFiles (s : Store) (scope : Scope) (c : FileClass) :
    (s.visibleFiles scope c).Nodup := by
  cases c with
  | lfsObjects => exact s.lfsObjects.nodup.sublist (List.filter_sublist.map _)
  | attachments => exact s.uploads.nodup.sublist (List.filter_sublist.map _)

/-- **No file is counted twice**, under whatever kinds it was copied or failed. -/
theorem nodup_countedFiles (s : Store) (scope : Scope) (c : FileClass) :
    (s.syncedFiles scope c ++ s.failedFiles scope c).Nodup := by
  have hnodup := s.nodup_visibleFiles scope c
  refine List.nodup_append.mpr ⟨hnodup.filter _, hnodup.filter _, ?_⟩
  rintro id hsynced _ hfailed rfl
  have hcopy := (List.mem_filter.mp hsynced).2
  have hnone := (List.mem_filter.mp hfailed).2
  rw [hcopy] at hnone
  simp at hnone

theorem countedFiles_subset (s : Store) (scope : Scope) (c : FileClass) :
    s.syncedFiles scope c ++ s.failedFiles scope c ⊆ s.visibleFiles scope c :=
  List.append_subset.mpr ⟨List.filter_subset_self _, List.filter_subset_self _⟩

theorem fileCounts_le (s : Store) (scope : Scope) (c : FileClass) :
    (s.fileCounts scope c).synced + (s.fileCounts scope c).failed ≤
      (s.fileCounts scope c).total := by
  have hlength := (List.subperm_of_subset (s.nodup_countedFiles scope c)
    (s.countedFiles_subset scope c)).length_le
  rwa [List.length_append] at hlength

end Store

end GeoReplication
