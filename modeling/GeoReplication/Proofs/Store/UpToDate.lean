import GeoReplication.Proofs.Store.Copied
import GeoReplication.Proofs.Store.Outcomes
import GeoReplication.Proofs.Time.ReadBack

/-!
# Proofs/Store/UpToDate — the categories leave nothing out

    neverSynced ∪ failed ∪ dirty = seen, on a listed storage, and not up to date

The right-hand side is said of projects and registries as they are read back, with times compared
as times (`Registry.UpToDate`); the categories look at columns and compare texts.  Two invariants
join the two: rows agree with what was recorded (`Store.Past.agrees`), so a part that was attempted
is synced or failed and its row can be read; and times of updates and of successes are stored times
(`Store.Past.dated`), which compare as their texts and read back.
-/

namespace GeoReplication

open GeoReplication.Time

/-! ## Up to date, as records say it -/

/-- Synced, no other copy asked for, and no update later than the last successful copy. -/
structure SyncRecord.UpToDate (r : SyncRecord) (updatedAt : Option Instant) : Prop where
  state : r.state = .synced
  request : r.resync = false
  updates : ∀ updated ∈ updatedAt, ∃ copied ∈ r.lastSuccessfulSyncAt, updated ≤ copied

/-- The repository is up to date, and so is the wiki if it is to be copied. -/
structure Registry.UpToDate (r : Registry) (p : Project) (includeWikis : Bool) : Prop where
  repository : r.repository.UpToDate p.lastRepositoryUpdatedAt
  wiki : includeWikis = true → p.wikiEnabled = true → r.wiki.UpToDate p.lastWikiUpdatedAt

theorem SyncState.word_injective {a b : SyncState} (h : a.word = b.word) : a = b := by
  simpa using congrArg SyncState.ofWord? h

/-! ## In no category -/

namespace PartRow

variable {r : PartRow} {failures : Nat} {p : ProjectRow} {row : RegistryRow} {part : Part}

/-- **A part is in no category just when it is current.** -/
theorem Agrees.isCurrent_iff (h : (row.part part).Agrees failures) :
    (∀ c : Category, c.holdsFor p row part = false) ↔
      (row.part part).IsCurrent (p.updatedAt part) := by
  refine ⟨fun hnone => ?_, fun h c => h.holdsFor c⟩
  have hattempted : (row.part part).syncedAt.isSome = true :=
    Option.isNone_eq_false_iff.mp (hnone .neverSynced)
  obtain ⟨state, hword⟩ := h.word
  cases state with
  | neverSynced =>
    rw [h.attempted.mp hword] at hattempted
    cases hattempted
  | syncFailed =>
    have hfailed : (row.part part).state ≠ SyncState.syncFailed.word := by
      simpa [Category.holdsFor] using hnone .failed
    exact absurd hword hfailed
  | synced =>
    have hdirty : (row.part part).isDirty (p.updatedAt part) = false := hnone .dirty
    rw [isDirty, hword, beq_self_eq_true, Bool.true_and, Bool.or_eq_false_iff] at hdirty
    obtain ⟨hrequest, hupdates⟩ := hdirty
    refine ⟨hword, hattempted, by simpa using hrequest, fun updated hu => ?_⟩
    rw [Option.any_eq_false] at hupdates
    exact String.not_lt.mp (of_decide_eq_false (hupdates updated hu))

/-- A half that agrees with what was recorded can be read. -/
theorem Agrees.record (h : r.Agrees failures) (now : Instant) (column : Nat) :
    ∃ state : SyncState, r.state = state.word ∧ r.record now column = .ok {
      state
      lastSyncedAt := r.syncedAt.map (.ofStored now)
      lastSuccessfulSyncAt := r.successfulAt.map (.ofStored now)
      retryCount := r.retryCount
      lastFailure := r.failure
      resync := r.resyncAt.isSome } := by
  obtain ⟨state, hword⟩ := h.word
  obtain ⟨hfirst, hlast⟩ := h.inRange
  refine ⟨state, hword, ?_⟩
  have hread : readWord column r.state SyncState.ofWord? = .ok state := by
    rw [readWord, hword, SyncState.ofWord?_word]
  have hrange : readNumber (column + 3) (-2147483648) 2147483647 r.retryCount =
      .ok r.retryCount := readNumber_eq_ok_iff.mpr ⟨by omega, rfl⟩
  exact bind_eq_ok_iff.mpr ⟨state, hread, bind_eq_ok_iff.mpr ⟨r.retryCount, hrange, rfl⟩⟩

end PartRow

/-- A row whose halves agree with what was recorded can be read. -/
theorem RegistryRow.record_of_agrees {row : RegistryRow} {failures : Part → Nat}
    (h : ∀ part, (row.part part).Agrees (failures part)) (now : Instant) (nodeId projectId : Int) :
    ∃ registry, row.record now nodeId projectId = .ok registry := by
  obtain ⟨_, _, hrepository⟩ := (h .repository).record now 2
  obtain ⟨_, _, hwiki⟩ := (h .wiki).record now 8
  change row.repository.record now 2 = _ at hrepository
  change row.wiki.record now 8 = _ at hwiki
  rw [RegistryRow.record, hrepository, hwiki]
  exact ⟨_, rfl⟩

/-! ## Stored times -/

/-- The text is that of a time in the years 0 to 9999. -/
def IsStored (text : String) : Prop := ∃ t : Instant, t.IsSortable ∧ text = t.stored

/-- Stored times are read back in the order of their texts. -/
theorem ofStored_le_iff {text text' : String} (h : IsStored text) (h' : IsStored text')
    (now : Instant) : Instant.ofStored now text ≤ Instant.ofStored now text' ↔ text ≤ text' := by
  obtain ⟨t, ht, rfl⟩ := h
  obtain ⟨t', ht', rfl⟩ := h'
  rw [Instant.ofStored_stored now ht, Instant.ofStored_stored now ht', Instant.stored_le_iff ht ht']

/-- **A part is current just when its record is up to date.** -/
theorem PartRow.Agrees.isCurrent_iff_upToDate {r : PartRow} {failures : Nat}
    {updatedAt : Option String} (h : r.Agrees failures)
    (hupdates : ∀ text ∈ updatedAt, IsStored text)
    (hcopies : ∀ text ∈ r.successfulAt, IsStored text) {now : Instant} {column : Nat}
    {record : SyncRecord} (hrecord : r.record now column = .ok record) :
    r.IsCurrent updatedAt ↔ record.UpToDate (updatedAt.map (.ofStored now)) := by
  obtain ⟨state, hword, hread⟩ := h.record now column
  cases hread.symm.trans hrecord
  constructor
  · intro hcurrent
    obtain ⟨copied, hcopied⟩ := Option.isSome_iff_exists.mp (h.synced hcurrent.state).1
    refine ⟨SyncState.word_injective (hword.symm.trans hcurrent.state), ?_, fun updated hu => ?_⟩
    · rw [hcurrent.request]
      rfl
    · obtain ⟨text, htext, rfl⟩ := Option.map_eq_some_iff.mp hu
      have hle := hcurrent.updates text htext
      rw [hcopied] at hle
      exact ⟨_, Option.map_eq_some_iff.mpr ⟨copied, hcopied, rfl⟩,
        (ofStored_le_iff (hupdates text htext) (hcopies copied hcopied) now).mpr hle⟩
  · intro hupToDate
    have hsynced : r.state = SyncState.synced.word := hword.trans (congrArg _ hupToDate.state)
    have hattempted : r.syncedAt ≠ none := fun hnone =>
      absurd (hsynced.symm.trans (h.attempted.mpr hnone)) (by decide)
    refine ⟨hsynced, Option.isSome_iff_ne_none.mpr hattempted,
      Option.isNone_iff_eq_none.mp (Option.isSome_eq_false_iff.mp hupToDate.request),
      fun text htext => ?_⟩
    obtain ⟨_, hmem, hle⟩ := hupToDate.updates _ (Option.map_eq_some_iff.mpr ⟨text, htext, rfl⟩)
    obtain ⟨copied, hcopied, rfl⟩ := Option.map_eq_some_iff.mp hmem
    rw [hcopied]
    exact (ofStored_le_iff (hupdates text htext) (hcopies copied hcopied) now).mp hle

/-! ## Times in the store -/

theorem ProjectRow.updatedAt_touch {p : ProjectRow} {time text : String} {part part' : Part}
    (h : text ∈ (p.touch time part').updatedAt part) : text = time ∨ text ∈ p.updatedAt part := by
  cases part <;> cases part' <;>
    first | exact .inr h | exact .inl (Option.some.inj h).symm

namespace Call

open GeoReplication.Store

/-- The times that an operation is told of projects and copies. -/
def times : Call → List Instant
  | createProject p => p.lastRepositoryUpdatedAt.toList
  | touchProject _ _ time => [time]
  | recordSyncSuccess _ _ _ started => [started]
  | _ => []

variable {c : Call} {now : Instant} {s : Store} {part : Part} {text : String}

/-- The time of an update was there before, or the operation was told it. -/
theorem update_after {id : Int} {p : ProjectRow}
    (h : (c.run now s).2.projects.get? id = some p) (htext : text ∈ p.updatedAt part) :
    (∃ p', s.projects.get? id = some p' ∧ text ∈ p'.updatedAt part) ∨
      ∃ t ∈ c.times, text = t.stored := by
  by_cases hplace : .projects ∈ c.writes
  · cases c with
    | createProject new =>
      rcases Store.run_createProject now new s with hrun | ⟨row, hrun, hrepository, hwiki⟩
      · rw [hrun] at h
        exact .inl ⟨p, h, htext⟩
      · rw [hrun, Numbered.get?_insert] at h
        split at h
        · cases h
          cases part with
          | repository =>
            obtain ⟨t, ht, rfl⟩ := Option.map_eq_some_iff.mp (hrepository.symm.trans htext)
            exact .inr ⟨t, Option.mem_toList.mpr ht, rfl⟩
          | wiki => cases hwiki.symm.trans htext
        · exact .inl ⟨p, h, htext⟩
    | deleteProject deleted =>
      change (s.projects.erase deleted).get? id = some p at h
      rw [Numbered.get?_erase] at h
      split at h
      · cases h
      · exact .inl ⟨p, h, htext⟩
    | touchProject touched part' time =>
      rcases Store.run_touchProject now touched part' time s with hrun | hrun
      · rw [hrun] at h
        exact .inl ⟨p, h, htext⟩
      · rw [hrun] at h
        obtain ⟨p', hp', rfl | rfl⟩ := get?_of_modify h
        · rcases ProjectRow.updatedAt_touch htext with rfl | htext
          · exact .inr ⟨time, List.mem_singleton_self _, rfl⟩
          · exact .inl ⟨p', hp', htext⟩
        · exact .inl ⟨p, hp', htext⟩
    | expireRepositoryCache expired =>
      obtain ⟨p', hp', rfl | rfl⟩ := get?_of_modify h
      · exact .inl ⟨p', hp', by cases part <;> exact htext⟩
      · exact .inl ⟨p, hp', htext⟩
    | _ => exact absurd hplace (by simp [writes])
  · have hsame : (c.run now s).2.projects = s.projects := c.sameBut_run now s .projects hplace
    rw [hsame] at h
    exact .inl ⟨p, h, htext⟩

/-- The time of a success was there before, or the operation was told it. -/
theorem copy_after {key : Int × Int} {row : RegistryRow}
    (h : (c.run now s).2.registries.get? key = some row)
    (htext : text ∈ (row.part part).successfulAt) :
    text ∈ s.lastSuccess key part ∨ ∃ t ∈ c.times, text = t.stored := by
  rcases row_after h with ⟨hthere, -⟩ | ⟨part', f, hc, -, rfl⟩
  · left
    rwa [Store.lastSuccess, hthere]
  · rw [← Store.lastSuccess_rowOrFresh s now]
    by_cases hpart : part = part'
    · subst hpart
      rw [RegistryRow.part_modify] at htext
      cases c with
      | recordSyncSuccess nodeId projectId part' started =>
        cases hc
        cases htext
        exact .inr ⟨started, List.mem_singleton_self _, rfl⟩
      | recordSyncFailure nodeId projectId part' reason =>
        cases hc
        exact .inl htext
      | requestResync nodeId projectId part' =>
        cases hc
        exact .inl htext
      | _ => cases hc
    · rw [RegistryRow.part_modify_of_ne hpart] at htext
      exact .inl htext

end Call

/-- The operation was told times in the years 0 to 9999 only. -/
def Deed.IsDated (d : Deed) : Prop := ∀ t ∈ d.call.times, t.IsSortable

namespace Store

variable {s : Store} {deeds : List Deed}

/-- Times of updates and of successes are stored times. -/
structure Dated (s : Store) : Prop where
  updates (id : Int) (p : ProjectRow) (part : Part) : s.projects.get? id = some p →
    ∀ text ∈ p.updatedAt part, IsStored text
  copies (key : Int × Int) (part : Part) : ∀ text ∈ s.lastSuccess key part, IsStored text

theorem Past.dated (h : Past deeds s) (hdeeds : ∀ d ∈ deeds, d.IsDated) : s.Dated := by
  induction h with
  | empty => exact ⟨fun _ _ _ h => (by cases h), fun _ _ _ h => (by cases h)⟩
  | call now c _ ih =>
    obtain ⟨hlast, hearlier⟩ := List.forall_mem_cons.mp hdeeds
    have hdated := ih hearlier
    have htold {text : String} (h : ∃ t ∈ c.times, text = t.stored) : IsStored text := by
      obtain ⟨t, ht, rfl⟩ := h
      exact ⟨t, hlast t ht, rfl⟩
    refine ⟨fun id p part hp text htext => ?_, fun key part text htext => ?_⟩
    · rcases Call.update_after hp htext with ⟨p', hp', htext'⟩ | h
      · exact hdated.updates id p' part hp' text htext'
      · exact htold h
    · obtain ⟨row, hrow, htext⟩ := Option.bind_eq_some_iff.mp htext
      rcases Call.copy_after hrow htext with htext' | h
      · exact hdated.copies key part text htext'
      · exact htold h

/-! ## Candidates -/

/-- Without a limit that cuts some off, all candidates are found. -/
theorem mem_candidates_iff {f : CandidateFilter} {c : Category} {limit : Nat} {id : Int}
    (hlimit : 2 ^ 63 ≤ limit ∨ s.projects.rows.length ≤ limit) :
    id ∈ s.candidates f c 0 limit ↔ id ∈ s.allCandidates f c := by
  refine ⟨fun h => ?_, fun h => ?_⟩
  · rw [candidates, limited] at h
    split at h
    · exact (List.mem_filter.mp (List.mem_of_mem_take h)).1
    · exact (List.mem_filter.mp h).1
  · have hpos := pos_of_mem_allCandidates h
    rcases hlimit with hlarge | hlength
    · have hunlimited : ¬ limit < Nat.pow 2 63 := Nat.not_lt.mpr hlarge
      rw [candidates, limited, if_neg hunlimited]
      exact List.mem_filter.mpr ⟨h, decide_eq_true hpos⟩
    · exact mem_candidates h hpos hlength

/-- A project with a registry is in some category unless each part to be copied is current. -/
theorem exists_holds_iff {includeWikis : Bool} {p : ProjectRow} {row : RegistryRow}
    {failures : Part → Nat} (h : ∀ part, (row.part part).Agrees (failures part)) :
    (∃ c : Category, c.holds includeWikis p (some row) = true) ↔
      ¬ ∀ part, p.hasPart includeWikis part = true →
        (row.part part).IsCurrent (p.updatedAt part) := by
  have hnone : (∀ c : Category, c.holds includeWikis p (some row) = false) ↔
      ∀ part, p.hasPart includeWikis part = true →
        (row.part part).IsCurrent (p.updatedAt part) := by
    simp only [← (h _).isCurrent_iff, Category.holds, Bool.or_eq_false_iff,
      Bool.and_eq_false_imp]
    refine ⟨fun hc part hpart c => ?_, fun hparts c => ⟨hparts .repository rfl c, fun hwiki =>
      hparts .wiki hwiki c⟩⟩
    cases part
    · exact (hc c).1
    · exact (hc c).2 hpart
  rw [← hnone]
  simp

/-- A registry as it is read is up to date just when each part to be copied is current. -/
theorem Dated.upToDate_iff (hs : s.Dated) {id nodeId : Int} {p : ProjectRow} {row : RegistryRow}
    {failures : Part → Nat} (h : ∀ part, (row.part part).Agrees (failures part))
    (hp : s.projects.get? id = some p) (hrow : s.registries.get? (nodeId, id) = some row)
    {now : Instant} {registry : Registry} (hread : row.record now nodeId id = .ok registry)
    (includeWikis : Bool) :
    registry.UpToDate (p.record now id) includeWikis ↔
      ∀ part, p.hasPart includeWikis part = true →
        (row.part part).IsCurrent (p.updatedAt part) := by
  have hparts (part : Part) : (row.part part).IsCurrent (p.updatedAt part) ↔
      (registry.record part).UpToDate ((p.updatedAt part).map (.ofStored now)) := by
    obtain ⟨column, hrecord⟩ := RegistryRow.part_record_of_record hread part
    refine (h part).isCurrent_iff_upToDate (hs.updates id p part hp) (fun text htext => ?_) hrecord
    exact hs.copies (nodeId, id) part text (by rw [lastSuccess, hrow]; exact htext)
  refine ⟨fun hup part hpart => (hparts part).mpr ?_, fun hcurrent => ⟨?_, fun hwikis hwiki => ?_⟩⟩
  · cases part with
    | repository => exact hup.repository
    | wiki =>
      obtain ⟨hwikis, hwiki⟩ := Bool.and_eq_true_iff.mp hpart
      exact hup.wiki hwikis hwiki
  · exact (hparts .repository).mp (hcurrent .repository rfl)
  · exact (hparts .wiki).mp (hcurrent .wiki (Bool.and_eq_true_iff.mpr ⟨hwikis, hwiki⟩))

/-- A project is in some category unless its registry, as it is read, is up to date. -/
theorem Past.exists_holds_iff (h : Past deeds s) (hs : s.Dated) {id : Int} {p : ProjectRow}
    (hp : s.projects.get? id = some p) (now : Instant) (nodeId : Int) (includeWikis : Bool) :
    (∃ c : Category, c.holds includeWikis p (s.registries.get? (nodeId, id)) = true) ↔
      ¬ ∃ registry, s.readRegistry now nodeId id = .ok (some registry) ∧
        registry.UpToDate (p.record now id) includeWikis := by
  rw [readRegistry]
  cases hrow : s.registries.get? (nodeId, id) with
  | none =>
    refine ⟨fun _ => ?_, fun _ => ⟨.neverSynced, rfl⟩⟩
    rintro ⟨registry, ⟨⟩, -⟩
  | some row =>
    have hagrees := h.agrees hrow
    obtain ⟨registry, hread⟩ := RegistryRow.record_of_agrees hagrees now nodeId id
    rw [Store.exists_holds_iff hagrees, ← hs.upToDate_iff hagrees hp hrow hread]
    refine not_congr ⟨fun hup => ⟨registry, ?_, hup⟩, ?_⟩
    · dsimp only
      rw [hread]
      rfl
    · rintro ⟨registry', hread', hup⟩
      dsimp only at hread'
      rw [hread] at hread'
      cases hread'
      exact hup

/-- **The categories leave nothing out.**  In every store that operations told times in the years 0
to 9999 lead to, the projects found in some category are those that the node sees, that lie on a
listed storage, and that are not up to date. -/
theorem Past.waits_iff (h : Past deeds s) (hdeeds : ∀ d ∈ deeds, d.IsDated) (now : Instant)
    (f : CandidateFilter) {limit : Nat}
    (hlimit : 2 ^ 63 ≤ limit ∨ s.projects.rows.length ≤ limit) (id : Int) :
    (∃ c ids, ((Call.findCandidates c f 0 limit).run now s).1 = .ok ids ∧ id ∈ ids) ↔
      ∃ p, s.project? now id = some p ∧ s.sees f.scope p.namespaceId = true ∧
        p.repositoryStorage ∈ f.storages ∧
        ¬ ∃ registry, s.readRegistry now f.scope.nodeId id = .ok (some registry) ∧
          registry.UpToDate p f.includeWikis := by
  have hfound : (∃ c ids, ((Call.findCandidates c f 0 limit).run now s).1 = .ok ids ∧ id ∈ ids) ↔
      ∃ c, id ∈ s.allCandidates f c := by
    refine exists_congr fun c => ?_
    rw [← mem_candidates_iff hlimit]
    exact ⟨fun ⟨ids, hrun, hid⟩ => by cases hrun; exact hid, fun hid => ⟨_, rfl, hid⟩⟩
  have hholds {p : ProjectRow} (hp : s.projects.get? id = some p) :=
    h.exists_holds_iff (h.dated hdeeds) hp now f.scope.nodeId f.includeWikis
  rw [hfound]
  constructor
  · rintro ⟨c, hc⟩
    obtain ⟨p, hp, hcandidate⟩ := mem_allCandidates.mp hc
    obtain ⟨hadmits, hcategory⟩ := Bool.and_eq_true_iff.mp hcandidate
    obtain ⟨hsees, hstorage⟩ := Bool.and_eq_true_iff.mp hadmits
    exact ⟨p.record now id, Option.map_eq_some_iff.mpr ⟨p, hp, rfl⟩, hsees,
      List.contains_iff_mem.mp hstorage, (hholds hp).mp ⟨c, hcategory⟩⟩
  · rintro ⟨_, hread, hsees, hstorage, hnot⟩
    obtain ⟨p, hp, rfl⟩ := Option.map_eq_some_iff.mp hread
    obtain ⟨c, hcategory⟩ := (hholds hp).mpr hnot
    refine ⟨c, mem_allCandidates.mpr ⟨p, hp, ?_⟩⟩
    have hadmits : s.admits f p = true :=
      Bool.and_eq_true_iff.mpr ⟨hsees, List.contains_iff_mem.mpr hstorage⟩
    exact Bool.and_eq_true_iff.mpr ⟨hadmits, hcategory⟩

/-- Of two projects that were copied, the one that was updated since is found. -/
theorem waits_iff_updated : ∃ deeds s, Past deeds s ∧ (∀ d ∈ deeds, d.IsDated) ∧
    let waits (id : Int) := ∃ c ids,
      ((Call.findCandidates c ⟨⟨1, false⟩, ["default"], false⟩ 0 (2 ^ 63)).run .epoch s).1 =
        .ok ids ∧ id ∈ ids
    ¬ waits 1 ∧ waits 2 := by
  let new (name : String) : NewProject := ⟨1, name, name, "default", false, some .epoch⟩
  let project (id : Int) (name : String) (updated : Instant) : Project :=
    ⟨id, 1, name, name, "default", false, some updated, none, none, .epoch⟩
  let registry (id : Int) : Registry :=
    ⟨1, id, ⟨.synced, some .epoch, some ⟨1, 0⟩, 0, none, false⟩, .fresh, .epoch⟩
  have htimes : ∀ t ∈ [⟨2, 0⟩, ⟨1, 0⟩, Instant.epoch], t.IsSortable := by decide +kernel
  obtain ⟨deeds, s, hpast, hdated, hprojects, hrows⟩ : ∃ deeds s, Past deeds s ∧
      (∀ d ∈ deeds, d.IsDated) ∧
      (s.project? .epoch 1 = some (project 1 "first" .epoch) ∧
        s.project? .epoch 2 = some (project 2 "second" ⟨2, 0⟩)) ∧
      ∀ id ∈ [1, 2], (s.readRegistry .epoch 1 id).toOption = some (some (registry id)) := by
    have hplaces := (((Past.empty.call .epoch (.createNamespace "group" none)).call .epoch
      (.createNode ⟨⟨"http", "secondary", 80, ""⟩, .secondary, true, [], 1, 1⟩)).call .epoch
      (.createProject (new "first"))).call .epoch (.createProject (new "second"))
    have hcopied := (hplaces.call .epoch (.recordSyncSuccess 1 1 .repository ⟨1, 0⟩)).call .epoch
      (.recordSyncSuccess 1 2 .repository ⟨1, 0⟩)
    refine ⟨_, _, hcopied.call .epoch (.touchProject 2 .repository ⟨2, 0⟩), ?_, ?_, ?_⟩
    · simpa [Deed.IsDated, Call.times, new] using htimes
    · decide +kernel
    · decide +kernel
  have hregistries (id : Int) (hid : id ∈ [1, 2]) :
      s.readRegistry .epoch 1 id = .ok (some (registry id)) := by
    have hrow := hrows id hid
    cases hread : s.readRegistry .epoch 1 id with
    | error e =>
      rw [hread] at hrow
      cases hrow
    | ok r =>
      rw [hread] at hrow
      exact congrArg Except.ok (Option.some.inj hrow)
  have hwaits := hpast.waits_iff hdated .epoch ⟨⟨1, false⟩, ["default"], false⟩
    (.inl (Nat.le_refl (2 ^ 63)))
  refine ⟨deeds, s, hpast, hdated, fun hfound => ?_, (hwaits 2).mpr ?_⟩
  · obtain ⟨p, hp, -, -, hnot⟩ := (hwaits 1).mp hfound
    cases hprojects.1.symm.trans hp
    refine hnot ⟨registry 1, hregistries 1 (by simp), ⟨rfl, rfl, ?_⟩, fun h => by cases h⟩
    rintro updated ⟨⟩
    exact ⟨⟨1, 0⟩, rfl, by decide⟩
  · refine ⟨_, hprojects.2, rfl, List.mem_singleton_self _, ?_⟩
    rintro ⟨r, hread, hup⟩
    cases (hregistries 2 (by simp)).symm.trans hread
    obtain ⟨copied, ⟨⟩, hle⟩ := hup.repository.updates ⟨2, 0⟩ rfl
    exact absurd hle (by decide)

end Store

end GeoReplication
