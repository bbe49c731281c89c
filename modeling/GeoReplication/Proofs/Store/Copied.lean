import GeoReplication.Proofs.Store.Candidates
import GeoReplication.Proofs.Store.Reached
import GeoReplication.Proofs.Time.StoredOrder

/-!
# Proofs/Store/Copied — what successful copies leave in the store

`Store.Copied` says of two stores that parts of projects were copied for a node in between, and
nothing else was written but leases and measured sizes.  A part that was copied is current: it is in
no category, neither by itself nor with the other part (`Copied.holds_eq_false`).  Projects that
were not copied are candidates as before (`Copied.isCandidate`).

A copy is current because nothing lies ahead of its start (`Store.NothingAhead`): no time of an
update, and no request for another copy.
-/

namespace GeoReplication

open Time

/-! ## Current parts -/

namespace PartRow

/-- The last copy succeeded, the part was not updated after its start, and no other is asked
for. -/
structure IsCurrent (r : PartRow) (updatedAt : Option String) : Prop where
  state : r.state = SyncState.synced.word
  copied : r.syncedAt.isSome = true
  request : r.resyncAt = none
  updates : ∀ updated ∈ updatedAt, updated ≤ r.successfulAt.getD ""

theorem isCurrent_succeed {r : PartRow} {time started : String} {updatedAt : Option String}
    (hrequests : ∀ requested ∈ r.resyncAt, requested ≤ started)
    (hupdates : ∀ updated ∈ updatedAt, updated ≤ started) :
    (r.succeed time started).IsCurrent updatedAt where
  state := rfl
  copied := rfl
  request := Option.filter_eq_none_iff.mpr fun requested h => by
    rw [decide_eq_true_eq, String.not_lt]
    exact hrequests requested h
  updates := hupdates

theorem IsCurrent.isDirty {r : PartRow} {updatedAt : Option String} (h : r.IsCurrent updatedAt) :
    r.isDirty updatedAt = false := by
  have hupdated : updatedAt.any (fun updated => decide (r.successfulAt.getD "" < updated)) =
      false := by
    cases updatedAt with
    | none => rfl
    | some updated => exact decide_eq_false (String.not_lt.mpr (h.updates updated rfl))
  rw [PartRow.isDirty, h.request, hupdated]
  exact Bool.and_false _

/-- A part that is current is in no category. -/
theorem IsCurrent.holdsFor {p : ProjectRow} {row : RegistryRow} {part : Part}
    (h : (row.part part).IsCurrent (p.updatedAt part)) (c : Category) :
    c.holdsFor p row part = false := by
  cases c with
  | neverSynced => rw [Category.holdsFor, ← Option.not_isSome, h.copied, Bool.not_true]
  | failed =>
    rw [Category.holdsFor, h.state]
    rfl
  | dirty => exact h.isDirty

end PartRow

namespace Store

variable {s s' s'' : Store} {nodeId : Int} {now now' : Instant}

/-- A node has a current copy of a part. -/
def HasCurrent (s : Store) (nodeId id : Int) (part : Part) : Prop :=
  ∃ p row, s.projects.get? id = some p ∧ s.registries.get? (nodeId, id) = some row ∧
    (row.part part).IsCurrent (p.updatedAt part)

/-! ## Nothing ahead -/

/-- The text is that of a time that has come. -/
def HasCome (now : Instant) (text : String) : Prop :=
  ∃ t : Instant, t.IsSortable ∧ t ≤ now ∧ text = t.stored

theorem HasCome.mono {text : String} (h : HasCome now text) (hle : now ≤ now') :
    HasCome now' text := by
  obtain ⟨t, ht, hcome, rfl⟩ := h
  exact ⟨t, ht, Instant.le_trans hcome hle, rfl⟩

/-- What has come is no later than what starts. -/
theorem HasCome.le_stored {text : String} {started : Instant} (h : HasCome now text)
    (hstarted : started.IsSortable) (hle : now ≤ started) : text ≤ started.stored := by
  obtain ⟨t, ht, hcome, rfl⟩ := h
  exact (Instant.stored_le_iff ht hstarted).mpr (Instant.toMicros_mono (Instant.le_trans hcome hle))

/-- No project was updated, and no copy asked for by a node, at a time that is still to come. -/
structure NothingAhead (s : Store) (nodeId : Int) (now : Instant) : Prop where
  updates (id : Int) (p : ProjectRow) (part : Part) : s.projects.get? id = some p →
    ∀ text ∈ p.updatedAt part, HasCome now text
  requests (id : Int) (row : RegistryRow) (part : Part) :
    s.registries.get? (nodeId, id) = some row →
      ∀ text ∈ (row.part part).resyncAt, HasCome now text

end Store

/-! ## What copies leave -/

/-- The row without the measured size. -/
def ProjectRow.unmeasured (p : ProjectRow) : ProjectRow := { p with sizeBytes := none }

theorem ProjectRow.updatedAt_unmeasured (p : ProjectRow) (part : Part) :
    p.unmeasured.updatedAt part = p.updatedAt part := by cases part <;> rfl

namespace Store

/-- Parts of projects have been copied for a node, and nothing else was written but leases and
measured sizes. -/
structure Copied (nodeId : Int) (copies : List (Int × Part)) (s s' : Store) : Prop where
  nodes : s'.nodes = s.nodes
  namespaces : s'.namespaces = s.namespaces
  links : s'.links = s.links
  projects (id : Int) : (s'.projects.get? id).map ProjectRow.unmeasured =
    (s.projects.get? id).map ProjectRow.unmeasured
  rest (id : Int) : (∀ part, (id, part) ∉ copies) →
    s'.registries.get? (nodeId, id) = s.registries.get? (nodeId, id)
  requests (id : Int) (row' : RegistryRow) (part : Part) :
    s'.registries.get? (nodeId, id) = some row' → ∀ text ∈ (row'.part part).resyncAt,
      ∃ row, s.registries.get? (nodeId, id) = some row ∧ text ∈ (row.part part).resyncAt
  current (id : Int) (part : Part) :
    (id, part) ∈ copies ∨ s.HasCurrent nodeId id part → s'.HasCurrent nodeId id part

variable {s s' s'' : Store} {nodeId : Int} {now now' : Instant} {copies copies' : List (Int × Part)}

/-- A project is there as it was, but for its size. -/
theorem project_of_unmeasured {id : Int} {p : ProjectRow}
    (h : (s'.projects.get? id).map ProjectRow.unmeasured =
      (s.projects.get? id).map ProjectRow.unmeasured)
    (hp : s.projects.get? id = some p) :
    ∃ p', s'.projects.get? id = some p' ∧ p'.unmeasured = p.unmeasured := by
  rw [hp] at h
  exact Option.map_eq_some_iff.mp h

namespace Copied

theorem project (h : Copied nodeId copies s s') {id : Int} {p : ProjectRow}
    (hp : s.projects.get? id = some p) :
    ∃ p', s'.projects.get? id = some p' ∧ p'.unmeasured = p.unmeasured :=
  project_of_unmeasured (h.projects id) hp

theorem project_before (h : Copied nodeId copies s s') {id : Int} {p' : ProjectRow}
    (hp : s'.projects.get? id = some p') :
    ∃ p, s.projects.get? id = some p ∧ p'.unmeasured = p.unmeasured := by
  obtain ⟨p, hp, hsame⟩ := project_of_unmeasured (h.projects id).symm hp
  exact ⟨p, hp, hsame.symm⟩

/-- Whatever leaves registries alone, and projects but for their sizes. -/
theorem of_same (hnodes : s'.nodes = s.nodes) (hnamespaces : s'.namespaces = s.namespaces)
    (hlinks : s'.links = s.links) (hregistries : s'.registries = s.registries)
    (hprojects : ∀ id, (s'.projects.get? id).map ProjectRow.unmeasured =
      (s.projects.get? id).map ProjectRow.unmeasured) : Copied nodeId [] s s' where
  nodes := hnodes
  namespaces := hnamespaces
  links := hlinks
  projects := hprojects
  rest _ _ := by rw [hregistries]
  requests id row part hrow text htext := ⟨row, hregistries ▸ hrow, htext⟩
  current id part h := by
    obtain ⟨p, row, hp, hrow, hcurrent⟩ := h.resolve_left List.not_mem_nil
    obtain ⟨p', hp', hsame⟩ := project_of_unmeasured (hprojects id) hp
    refine ⟨p', row, hp', by rwa [hregistries], ?_⟩
    rwa [← ProjectRow.updatedAt_unmeasured, hsame, ProjectRow.updatedAt_unmeasured]

theorem refl (nodeId : Int) (s : Store) : Copied nodeId [] s s :=
  .of_same rfl rfl rfl rfl fun _ => rfl

theorem leases (nodeId : Int) (s : Store) (leases : Table String LeaseRow) :
    Copied nodeId [] s { s with leases } := .of_same rfl rfl rfl rfl fun _ => rfl

theorem trans (h : Copied nodeId copies s s') (h' : Copied nodeId copies' s' s'') :
    Copied nodeId (copies ++ copies') s s'' where
  nodes := h'.nodes.trans h.nodes
  namespaces := h'.namespaces.trans h.namespaces
  links := h'.links.trans h.links
  projects id := (h'.projects id).trans (h.projects id)
  rest id hid := by
    rw [h'.rest id fun part hmem => hid part (List.mem_append_right _ hmem),
      h.rest id fun part hmem => hid part (List.mem_append_left _ hmem)]
  requests id row'' part hrow'' text htext := by
    obtain ⟨row', hrow', htext'⟩ := h'.requests id row'' part hrow'' text htext
    exact h.requests id row' part hrow' text htext'
  current id part hcurrent := by
    refine h'.current id part ?_
    rw [List.mem_append, or_assoc, or_left_comm] at hcurrent
    exact hcurrent.imp_right (h.current id part)

/-- Nothing is ahead of later times. -/
theorem nothingAhead (h : Copied nodeId copies s s') (ha : s.NothingAhead nodeId now)
    (hle : now ≤ now') : s'.NothingAhead nodeId now' where
  updates id p' part hp' text htext := by
    obtain ⟨p, hp, hsame⟩ := h.project_before hp'
    rw [← ProjectRow.updatedAt_unmeasured, hsame, ProjectRow.updatedAt_unmeasured] at htext
    exact (ha.updates id p part hp text htext).mono hle
  requests id row' part hrow' text htext := by
    obtain ⟨row, hrow, htext⟩ := h.requests id row' part hrow' text htext
    exact (ha.requests id row part hrow text htext).mono hle

/-- **A success that is recorded**: the part is current, and the other part stays as it was. -/
theorem of_succeed {id : Int} {part : Part} {p : ProjectRow} {started : Instant} {time : String}
    (hp : s.projects.get? id = some p) (ha : s.NothingAhead nodeId now)
    (hstarted : started.IsSortable) (hle : now ≤ started)
    (hw : Rewrites now' (nodeId, id) part (.succeed time started.stored) s s') :
    Copied nodeId [(id, part)] s s' := by
  have hprojects : s'.projects = s.projects := by rw [hw.rest]
  -- the row as the change finds it asks for nothing that lies ahead
  have hrequests : ∀ part', ∀ text ∈ ((s.rowOrFresh now' (nodeId, id)).part part').resyncAt,
      ∃ row, s.registries.get? (nodeId, id) = some row ∧ text ∈ (row.part part').resyncAt := by
    intro part' text htext
    rw [rowOrFresh] at htext
    cases hrow : s.registries.get? (nodeId, id) with
    | some row =>
      rw [hrow] at htext
      exact ⟨row, rfl, htext⟩
    | none =>
      rw [hrow] at htext
      cases part' <;> cases htext
  have hcurrent : ∀ (row : RegistryRow),
      (∀ text ∈ (row.part part).resyncAt, HasCome now text) → ((row.part part).succeed time
        started.stored).IsCurrent (p.updatedAt part) := fun row hcome =>
    PartRow.isCurrent_succeed (fun text htext => (hcome text htext).le_stored hstarted hle)
      fun text htext => (ha.updates id p part hp text htext).le_stored hstarted hle
  refine ⟨by rw [hw.rest], by rw [hw.rest], by rw [hw.rest], fun _ => by rw [hprojects], ?_, ?_, ?_⟩
  · intro id' hid'
    rw [hw.rows, if_neg]
    rintro he
    obtain rfl := (Prod.mk.inj he).2
    exact hid' part List.mem_cons_self
  · intro id' row' part' hrow' text htext
    rw [hw.rows] at hrow'
    split at hrow'
    · next he =>
      obtain rfl := (Prod.mk.inj he).2
      cases hrow'
      refine hrequests part' text ?_
      by_cases hpart : part' = part
      · subst hpart
        rw [RegistryRow.part_modify] at htext
        exact (Option.filter_eq_some_iff.mp htext).1
      · rwa [RegistryRow.part_modify_of_ne hpart] at htext
    · exact ⟨row', hrow', htext⟩
  · intro id' part' h
    by_cases hown : id' = id ∧ part' = part
    · obtain ⟨rfl, rfl⟩ := hown
      refine ⟨p, _, by rw [hprojects, hp], by rw [hw.rows, if_pos rfl], ?_⟩
      rw [RegistryRow.part_modify]
      refine hcurrent _ fun text htext => ?_
      obtain ⟨row, hrow, htext⟩ := hrequests part' text htext
      exact ha.requests id' row part' hrow text htext
    · obtain ⟨p', row, hp', hrow, hkept⟩ := h.resolve_left fun hmem =>
        hown (Prod.mk.inj (List.mem_singleton.mp hmem))
      obtain ⟨row', hrow', hhalves⟩ := hw.halves hrow
      refine ⟨p', row', by rw [hprojects, hp'], hrow', ?_⟩
      rw [hhalves, if_neg]
      · exact hkept
      · rintro ⟨he, hpart⟩
        exact hown ⟨(Prod.mk.inj he).2, hpart⟩

/-- Measured sizes do not matter. -/
theorem of_expire (nodeId id : Int) (s : Store) :
    Copied nodeId [] s ((Call.expireRepositoryCache id).run now s).2 := by
  refine .of_same rfl rfl rfl rfl fun id' => ?_
  change ((s.projects.modify id _).get? id').map _ = _
  rw [Numbered.get?_modify]
  split
  · rw [Option.map_map]
    rfl
  · rfl

end Copied

/-! ## Candidates -/

/-- The parts of a project that are to be copied. -/
def copiesOf (s : Store) (includeWikis : Bool) (id : Int) : List (Int × Part) :=
  match s.projects.get? id with
  | none => []
  | some p => ([.repository, .wiki].filter (p.hasPart includeWikis)).map (id, ·)

theorem copiesOf_of_get? {includeWikis : Bool} {id : Int} {p : ProjectRow}
    (hp : s.projects.get? id = some p) : s.copiesOf includeWikis id =
      [(id, .repository)] ++ if p.wikiEnabled && includeWikis then [(id, .wiki)] else [] := by
  rw [copiesOf, hp, Bool.and_comm]
  simp only [List.filter, ProjectRow.hasPart]
  split <;> next h => simp [h]

theorem fst_of_mem_copiesOf {includeWikis : Bool} {id id' : Int} {part : Part}
    (h : (id', part) ∈ s.copiesOf includeWikis id) : id' = id := by
  rw [copiesOf] at h
  split at h
  · exact absurd h List.not_mem_nil
  · obtain ⟨part', -, he⟩ := List.mem_map.mp h
    exact (Prod.mk.inj he).1.symm

theorem mem_copiesOf {includeWikis : Bool} {id : Int} {part : Part} {p : ProjectRow}
    (hp : s.projects.get? id = some p) (hpart : p.hasPart includeWikis part = true) :
    (id, part) ∈ s.copiesOf includeWikis id := by
  rw [copiesOf, hp]
  refine List.mem_map_of_mem (List.mem_filter.mpr ⟨?_, hpart⟩)
  cases part <;> decide

theorem isCandidate_unmeasured (s : Store) (f : CandidateFilter) (c : Category) (id : Int)
    (p : ProjectRow) : s.isCandidate f c id p.unmeasured = s.isCandidate f c id p := by
  rw [isCandidate, isCandidate]
  cases s.registries.get? (f.scope.nodeId, id) <;> cases c <;> rfl

namespace Copied

variable {f : CandidateFilter} {id : Int} {p p' : ProjectRow}

theorem copiesOf (h : Copied nodeId copies s s') (includeWikis : Bool) (id : Int) :
    s'.copiesOf includeWikis id = s.copiesOf includeWikis id := by
  have hsame := h.projects id
  rw [Store.copiesOf, Store.copiesOf]
  cases hp : s.projects.get? id with
  | none =>
    rw [hp] at hsame
    rw [Option.map_eq_none_iff.mp hsame]
  | some p =>
    obtain ⟨p', hp', hsame⟩ := h.project hp
    have hparts : p'.hasPart includeWikis = p.hasPart includeWikis := by
      ext part
      change p'.unmeasured.hasPart includeWikis part = p.unmeasured.hasPart includeWikis part
      rw [hsame]
    rw [hp']
    exact congrArg (fun parts => (List.filter parts _).map _) hparts

/-- A project of which no part was copied is a candidate as before. -/
theorem isCandidate (h : Copied f.scope.nodeId copies s s') (hid : ∀ part, (id, part) ∉ copies)
    (hsame : p'.unmeasured = p.unmeasured) (c : Category) :
    s'.isCandidate f c id p' = s.isCandidate f c id p := by
  rw [← isCandidate_unmeasured s', hsame, isCandidate_unmeasured s', Store.isCandidate,
    Store.isCandidate, h.rest id hid, admits, admits, sees_congr h.namespaces h.links]

/-- A project whose parts are all current is no candidate. -/
theorem isCandidate_eq_false (hp : s.projects.get? id = some p)
    (hcurrent : ∀ part, p.hasPart f.includeWikis part = true →
      s.HasCurrent f.scope.nodeId id part) (c : Category) :
    s.isCandidate f c id p = false := by
  have hpart : ∀ part, p.hasPart f.includeWikis part = true → ∃ row,
      s.registries.get? (f.scope.nodeId, id) = some row ∧ c.holdsFor p row part = false := by
    intro part hhas
    obtain ⟨p', row, hp', hrow, h⟩ := hcurrent part hhas
    obtain rfl : p' = p := Option.some.inj (hp'.symm.trans hp)
    exact ⟨row, hrow, h.holdsFor c⟩
  obtain ⟨row, hrow, hrepository⟩ := hpart .repository rfl
  have hwiki : (p.hasPart f.includeWikis .wiki && c.holdsFor p row .wiki) = false := by
    cases hhas : p.hasPart f.includeWikis .wiki with
    | false => rfl
    | true =>
      obtain ⟨row', hrow', h⟩ := hpart .wiki hhas
      obtain rfl : row' = row := Option.some.inj (hrow'.symm.trans hrow)
      exact h
  rw [Store.isCandidate, hrow, Category.holds, hrepository, hwiki]
  exact Bool.and_false _

end Copied

end Store

end GeoReplication
