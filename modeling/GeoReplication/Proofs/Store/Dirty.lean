import GeoReplication.Proofs.Store.UpToDate

/-!
# Proofs/Store/Dirty — dirty in the columns, dirty in the record

    successfulAt.getD "" < updatedAt        lastSuccessfulSyncAt < updated
        texts, none before all                  times, none by cases

The look-up for dirty projects compares columns as text, where a missing success is the empty text;
a record that was read compares times, and says what a missing one means case by case.  On stored
times, which are never empty and are ordered as they are read (`ofStored_le_iff`), the two agree
(`PartRow.Agrees.isDirty_record`), so the look-up finds just the projects whose registries, as they
are read, are dirty (`Store.Past.dirty_iff_read`).
-/

namespace GeoReplication

open GeoReplication.Time

/-- The repository is dirty, or the wiki is and is to be copied. -/
def Registry.IsDirty (r : Registry) (p : Project) (includeWikis : Bool) : Prop :=
  r.repository.isDirty p.lastRepositoryUpdatedAt = true ∨
    includeWikis = true ∧ p.wikiEnabled = true ∧ r.wiki.isDirty p.lastWikiUpdatedAt = true

/-! ## Texts and times -/

/-- Stored times are read back in the strict order of their texts. -/
theorem ofStored_lt_iff {text text' : String} (h : IsStored text) (h' : IsStored text')
    (now : Instant) : Instant.ofStored now text < Instant.ofStored now text' ↔ text < text' := by
  rw [← String.not_le, ← ofStored_le_iff h' h now, ← Instant.not_lt, Classical.not_not]

/-- The empty text, which stands for no success, comes before every stored time. -/
theorem IsStored.empty_lt {text : String} (h : IsStored text) : "" < text := by
  obtain ⟨t, ht, rfl⟩ := h
  rw [String.lt_iff, Instant.toList_stored ht]
  exact List.nil_lt_cons _ _

/-- A record is dirty if it is synced, and a copy was asked for or an update came after the last
success. -/
theorem SyncRecord.isDirty_eq (r : SyncRecord) (updatedAt : Option Instant) :
    r.isDirty updatedAt = (decide (r.state = .synced) &&
      (r.resync || updatedAt.any fun updated =>
        r.lastSuccessfulSyncAt.all fun copied => decide (copied < updated))) := by
  unfold isDirty
  by_cases hstate : r.state = .synced
  · cases hresync : r.resync with
    | true => simp [hstate]
    | false => cases updatedAt <;> cases r.lastSuccessfulSyncAt <;> simp [hstate]
  · simp [hstate]

/-- **A half of a row is dirty just when the record that is read from it is.** -/
theorem PartRow.Agrees.isDirty_record {r : PartRow} {failures : Nat} {updatedAt : Option String}
    (h : r.Agrees failures) (hupdates : ∀ text ∈ updatedAt, IsStored text)
    (hcopies : ∀ text ∈ r.successfulAt, IsStored text) {now : Instant} {column : Nat}
    {record : SyncRecord} (hrecord : r.record now column = .ok record) :
    record.isDirty (updatedAt.map (.ofStored now)) = r.isDirty updatedAt := by
  obtain ⟨state, hword, hread⟩ := h.record now column
  cases hread.symm.trans hrecord
  have hstate : (r.state == SyncState.synced.word) = decide (state = .synced) := by
    rw [hword, Bool.eq_iff_iff, beq_iff_eq, decide_eq_true_iff]
    exact ⟨SyncState.word_injective, congrArg _⟩
  -- with or without a success, an update counts on both sides or on neither
  have hupdated : ∀ text ∈ updatedAt,
      (r.successfulAt.map (Instant.ofStored now)).all
        (fun copied => decide (copied < Instant.ofStored now text)) =
      decide (r.successfulAt.getD "" < text) := by
    intro text htext
    cases hcopied : r.successfulAt with
    | none => exact (decide_eq_true (hupdates text htext).empty_lt).symm
    | some copied =>
      exact decide_eq_decide.mpr
        (ofStored_lt_iff (hcopies copied hcopied) (hupdates text htext) now)
  rw [SyncRecord.isDirty_eq, PartRow.isDirty, hstate]
  cases updatedAt with
  | none => rfl
  | some text => exact congrArg (fun late => _ && (_ || late)) (hupdated text rfl)

namespace Store

variable {s : Store} {deeds : List Deed}

/-- The columns of a row say of a project what its registry says as it is read. -/
theorem Dated.isDirty_iff (hs : s.Dated) {id nodeId : Int} {p : ProjectRow} {row : RegistryRow}
    {failures : Part → Nat} (h : ∀ part, (row.part part).Agrees (failures part))
    (hp : s.projects.get? id = some p) (hrow : s.registries.get? (nodeId, id) = some row)
    {now : Instant} {registry : Registry} (hread : row.record now nodeId id = .ok registry)
    (includeWikis : Bool) :
    Category.dirty.holds includeWikis p (some row) = true ↔
      registry.IsDirty (p.record now id) includeWikis := by
  have hparts (part : Part) :
      (registry.record part).isDirty ((p.updatedAt part).map (.ofStored now)) =
        (row.part part).isDirty (p.updatedAt part) := by
    obtain ⟨column, hrecord⟩ := RegistryRow.part_record_of_record hread part
    refine (h part).isDirty_record (hs.updates id p part hp) (fun text htext => ?_) hrecord
    exact hs.copies (nodeId, id) part text (by rw [lastSuccess, hrow]; exact htext)
  rw [Category.holds, Category.holdsFor, Category.holdsFor, ← hparts .repository, ← hparts .wiki,
    ProjectRow.hasPart, Bool.or_eq_true_iff, Bool.and_eq_true_iff, Bool.and_eq_true_iff, and_assoc]
  exact Iff.rfl

/-- What is answered for a registry is what is read. -/
theorem getRegistry_ok_iff {now : Instant} {nodeId id : Int} {registry : Option Registry} :
    ((Call.getRegistry nodeId id).run now s).1 = .ok registry ↔
      s.readRegistry now nodeId id = .ok registry := by
  refine ⟨Call.run_of_lift, fun hread => ?_⟩
  change (Call.lift (getRegistry now nodeId id) s).1 = _
  rw [Call.lift, getRegistry, Action.run_read, hread]

/-- A registry can always be read. -/
theorem Past.exists_registry (h : Past deeds s) (now : Instant) (nodeId id : Int) :
    ∃ registry, s.readRegistry now nodeId id = .ok registry := by
  rw [readRegistry]
  cases hrow : s.registries.get? (nodeId, id) with
  | none => exact ⟨none, rfl⟩
  | some row =>
    obtain ⟨registry, hread⟩ := RegistryRow.record_of_agrees (h.agrees hrow) now nodeId id
    exact ⟨some registry, congrArg (Except.map some) hread⟩

/-- A project is in the category just when its registry, as it is read, is dirty. -/
theorem Past.holds_dirty_iff (h : Past deeds s) (hs : s.Dated) {id : Int} {p : ProjectRow}
    (hp : s.projects.get? id = some p) (now : Instant) (nodeId : Int) (includeWikis : Bool) :
    Category.dirty.holds includeWikis p (s.registries.get? (nodeId, id)) = true ↔
      ∃ registry, s.readRegistry now nodeId id = .ok (some registry) ∧
        registry.IsDirty (p.record now id) includeWikis := by
  rw [readRegistry]
  cases hrow : s.registries.get? (nodeId, id) with
  | none => simp [Category.holds]
  | some row =>
    have hagrees := h.agrees hrow
    obtain ⟨registry, hread⟩ := RegistryRow.record_of_agrees hagrees now nodeId id
    rw [hs.isDirty_iff hagrees hp hrow hread]
    dsimp only
    rw [hread]
    refine ⟨fun hdirty => ⟨registry, rfl, hdirty⟩, ?_⟩
    rintro ⟨_, ⟨⟩, hdirty⟩
    exact hdirty

/-- **What is found to be dirty is what is dirty as it is read.**  In every store that operations
told times in the years 0 to 9999 lead to, each registry can be read, and the look-up for dirty
projects answers with the first, up to its limit, of those after a number that the node sees, that
lie on a listed storage, and whose registry says that it is dirty by the times of the project. -/
theorem Past.dirty_iff_read (h : Past deeds s) (hdeeds : ∀ d ∈ deeds, d.IsDated) (now : Instant)
    (f : CandidateFilter) (afterId : Int) (limit : Nat) :
    (∀ id, ∃ registry, ((Call.getRegistry f.scope.nodeId id).run now s).1 = .ok registry) ∧
    ∃ ids, ((Call.findCandidates .dirty f afterId limit).run now s).1 = .ok (limited limit ids) ∧
      ids.Pairwise (· < ·) ∧
      ∀ id, id ∈ ids ↔ afterId < id ∧ ∃ p registry,
        ((Call.getProject id).run now s).1 = .ok (some p) ∧
        s.sees f.scope p.namespaceId = true ∧ p.repositoryStorage ∈ f.storages ∧
        ((Call.getRegistry f.scope.nodeId id).run now s).1 = .ok (some registry) ∧
        registry.IsDirty p f.includeWikis := by
  refine ⟨fun id => ?_, (s.allCandidates f .dirty).filter fun id => afterId < id, rfl,
    (allCandidates_pairwise s f .dirty).filter _, fun id => ?_⟩
  · obtain ⟨registry, hread⟩ := h.exists_registry now f.scope.nodeId id
    exact ⟨registry, getRegistry_ok_iff.mpr hread⟩
  have hdirty {p : ProjectRow} (hp : s.projects.get? id = some p) :=
    h.holds_dirty_iff (h.dated hdeeds) hp now f.scope.nodeId f.includeWikis
  rw [List.mem_filter, and_comm, decide_eq_true_iff, mem_allCandidates]
  refine and_congr_right fun _ => ⟨?_, ?_⟩
  · rintro ⟨p, hp, hcandidate⟩
    obtain ⟨hadmits, hcategory⟩ := Bool.and_eq_true_iff.mp hcandidate
    obtain ⟨hsees, hstorage⟩ := Bool.and_eq_true_iff.mp hadmits
    obtain ⟨registry, hread, hlate⟩ := (hdirty hp).mp hcategory
    have hread' : s.project? now id = some (p.record now id) :=
      Option.map_eq_some_iff.mpr ⟨p, hp, rfl⟩
    exact ⟨p.record now id, registry, congrArg Except.ok hread', hsees,
      List.contains_iff_mem.mp hstorage, getRegistry_ok_iff.mpr hread, hlate⟩
  · rintro ⟨_, registry, hread, hsees, hstorage, hregistry, hlate⟩
    obtain ⟨p, hp, rfl⟩ := Option.map_eq_some_iff.mp (Except.ok.inj hread)
    have hadmits : s.admits f p = true :=
      Bool.and_eq_true_iff.mpr ⟨hsees, List.contains_iff_mem.mpr hstorage⟩
    have hcategory := (hdirty hp).mpr ⟨registry, getRegistry_ok_iff.mp hregistry, hlate⟩
    exact ⟨p, hp, Bool.and_eq_true_iff.mpr ⟨hadmits, hcategory⟩⟩

/-- Of two projects with copied wikis, the one whose wiki was updated since is found and is dirty as
it is read; the other is not found and is not dirty. -/
theorem dirty_iff_read_updated : ∃ deeds s, Past deeds s ∧ (∀ d ∈ deeds, d.IsDated) ∧
    ((Call.findCandidates .dirty ⟨⟨1, false⟩, ["default"], true⟩ 0 (2 ^ 63)).run .epoch s).1 =
      .ok [2] ∧
    ∀ id ∈ [1, 2], ∃ p registry, ((Call.getProject id).run .epoch s).1 = .ok (some p) ∧
      ((Call.getRegistry 1 id).run .epoch s).1 = .ok (some registry) ∧
      (registry.IsDirty p true ↔ id = 2) := by
  let new (name : String) : NewProject := ⟨1, name, name, "default", true, some .epoch⟩
  let f : CandidateFilter := ⟨⟨1, false⟩, ["default"], true⟩
  have htimes : ∀ t ∈ [⟨2, 0⟩, ⟨1, 0⟩, Instant.epoch], t.IsSortable := by decide +kernel
  obtain ⟨deeds, s, hpast, hdated, hprojects, hrows, hfound⟩ : ∃ deeds s, Past deeds s ∧
      (∀ d ∈ deeds, d.IsDated) ∧
      (∀ id ∈ [1, 2], ∃ p ∈ s.project? .epoch id, p.repositoryStorage = "default") ∧
      (∀ id ∈ [1, 2], (s.readRegistry .epoch 1 id).toOption.join.isSome) ∧
      s.allCandidates f .dirty = [2] := by
    have hplaces := (((Past.empty.call .epoch (.createNamespace "group" none)).call .epoch
      (.createNode ⟨⟨"http", "secondary", 80, ""⟩, .secondary, true, [], 1, 1⟩)).call .epoch
      (.createProject (new "first"))).call .epoch (.createProject (new "second"))
    have hcopied := (hplaces.call .epoch (.recordSyncSuccess 1 1 .wiki ⟨1, 0⟩)).call .epoch
      (.recordSyncSuccess 1 2 .wiki ⟨1, 0⟩)
    refine ⟨_, _, hcopied.call .epoch (.touchProject 2 .wiki ⟨2, 0⟩), ?_, ?_, ?_, ?_⟩
    · simpa [Deed.IsDated, Call.times, new] using htimes
    all_goals decide +kernel
  obtain ⟨hreads, ids, hrun, -, hids⟩ := hpast.dirty_iff_read hdated .epoch f 0 (2 ^ 63)
  have hanswer : s.candidates f .dirty 0 (2 ^ 63) = [2] := by
    rw [candidates, hfound]
    decide +kernel
  obtain rfl : ids = [2] := by
    have hall : limited (2 ^ 63) ids = ids := if_neg (Nat.lt_irrefl _)
    rw [← hall, ← hanswer]
    exact (Except.ok.inj hrun).symm
  refine ⟨deeds, s, hpast, hdated, congrArg Except.ok hanswer, fun id hid => ?_⟩
  obtain ⟨p, hp, hstorage⟩ := hprojects id hid
  obtain ⟨row, hread⟩ := hreads id
  have hsome := hrows id hid
  rw [getRegistry_ok_iff.mp hread] at hsome
  obtain ⟨registry, rfl⟩ := Option.isSome_iff_exists.mp hsome
  have hpos : 0 < id := (by decide : ∀ id ∈ [1, 2], (0 : Int) < id) id hid
  refine ⟨p, registry, congrArg Except.ok hp, hread, fun hlate => ?_, fun htwo => ?_⟩
  · exact List.mem_singleton.mp ((hids id).mpr ⟨hpos, p, registry, congrArg Except.ok hp, rfl,
      List.mem_singleton.mpr hstorage, hread, hlate⟩)
  · obtain ⟨-, p', registry', hp', -, -, hread', hlate⟩ :=
      (hids id).mp (List.mem_singleton.mpr htwo)
    cases hp.symm.trans (Except.ok.inj hp')
    cases hread.symm.trans hread'
    exact hlate

end Store

end GeoReplication
