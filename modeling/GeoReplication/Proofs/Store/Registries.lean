import GeoReplication.Proofs.Store.Places

/-!
# Proofs/Store/Registries — what becomes of registries

Registries and projects are changed by few operations (`Call.Touches`); all others leave both
tables as they are.
-/

namespace GeoReplication

open GeoReplication.Time

namespace Call

/-- The operation may change a registry or a project. -/
def Touches : Call → Prop
  | createProject _ => True
  | deleteProject _ => True
  | touchProject _ _ _ => True
  | expireRepositoryCache _ => True
  | deleteNode _ => True
  | recordSyncSuccess _ _ _ _ => True
  | recordSyncFailure _ _ _ _ => True
  | requestResync _ _ _ => True
  | deleteRegistry _ _ => True
  | _ => False

end Call

namespace Store

open GeoReplication.Action

/-- Registries and projects. -/
def records (s : Store) : Table (Int × Int) RegistryRow × Numbered ProjectRow :=
  (s.registries, s.projects)

/-- Rows that pass a filter were there before. -/
theorem get?_of_filter {κ α : Type} [DecidableEq κ] {t : Table κ α} {p : κ → α → Bool} {k : κ}
    {a : α} (h : (t.filter p).get? k = some a) : t.get? k = some a ∧ p k a = true := by
  rw [Table.get?_filter] at h
  exact Option.filter_eq_some_iff.mp h

theorem get?_filter_of_pos {κ α : Type} [DecidableEq κ] {t : Table κ α} {p : κ → α → Bool} {k : κ}
    {a : α} (h : t.get? k = some a) (hp : p k a = true) : (t.filter p).get? k = some a := by
  rw [Table.get?_filter, h]
  exact Option.filter_eq_some_iff.mpr ⟨rfl, hp⟩

/-- A row of a table in which one row was changed is that row, or was there. -/
theorem get?_of_modify {α : Type} {t : Numbered α} {id id' : Int} {f : α → α} {a : α}
    (h : (t.modify id f).get? id' = some a) :
    ∃ b, t.get? id' = some b ∧ (a = f b ∨ a = b) := by
  rw [Numbered.get?_modify] at h
  split at h
  · obtain ⟨b, hb, rfl⟩ := Option.map_eq_some_iff.mp h
    exact ⟨b, hb, .inl rfl⟩
  · exact ⟨a, h, .inr rfl⟩

/-! ## One half of one row -/

/-- The row of a node for a project, as a change finds it: a fresh one if there is none. -/
def rowOrFresh (s : Store) (now : Instant) (key : Int × Int) : RegistryRow :=
  (s.registries.get? key).getD (.fresh now.stored)

/-- One half of one row has been changed, and nothing else; the row was there, or its node and its
project are. -/
structure Rewrites (now : Instant) (key : Int × Int) (part : Part) (f : PartRow → PartRow)
    (s s' : Store) : Prop where
  known : s.registries.contains key = true ∨
    s.nodes.contains key.1 = true ∧ s.projects.contains key.2 = true
  rest : s' = { s with registries := s'.registries }
  rows : ∀ key', s'.registries.get? key' =
    if key' = key then some ((s.rowOrFresh now key).modify part f) else s.registries.get? key'

/-- What becomes of the halves of a row that was there. -/
theorem Rewrites.halves {now : Instant} {key key' : Int × Int} {part : Part}
    {f : PartRow → PartRow} {s s' : Store} {row : RegistryRow} (h : Rewrites now key part f s s')
    (hrow : s.registries.get? key' = some row) :
    ∃ row', s'.registries.get? key' = some row' ∧ ∀ part', row'.part part' =
      if key' = key ∧ part' = part then f (row.part part') else row.part part' := by
  rw [h.rows]
  by_cases hkey : key' = key
  · subst hkey
    rw [if_pos rfl, rowOrFresh, hrow]
    refine ⟨_, rfl, fun part' => ?_⟩
    by_cases hpart : part' = part
    · subst hpart
      rw [if_pos ⟨rfl, rfl⟩]
      exact RegistryRow.part_modify _ _ _
    · rw [if_neg fun h => hpart h.2]
      exact RegistryRow.part_modify_of_ne hpart _ _
  · rw [if_neg hkey]
    exact ⟨row, hrow, fun part' => by rw [if_neg fun h => hkey h.1]⟩

/-- A row is made sure of, or its node or its project is missing. -/
theorem run_ensureRegistry (now : Instant) (nodeId projectId : Int) (s : Store) :
    ((ensureRegistry now nodeId projectId).run s = (.error .danglingReference, s) ∧
      ¬ (s.nodes.contains nodeId && s.projects.contains projectId) = true) ∨
      ∃ registries, (ensureRegistry now nodeId projectId).run s = (.ok (), { s with registries }) ∧
        (s.registries.contains (nodeId, projectId) = true ∨
          s.nodes.contains nodeId = true ∧ s.projects.contains projectId = true) ∧
        ∀ key, registries.get? key =
          if key = (nodeId, projectId) then some (s.rowOrFresh now (nodeId, projectId))
          else s.registries.get? key := by
  rw [ensureRegistry, run_statement]
  cases hrow : s.registries.get? (nodeId, projectId) with
  | some row =>
    have hthere : s.registries.contains (nodeId, projectId) = true := by
      rw [Table.contains, hrow]
      rfl
    rw [if_pos hthere]
    refine .inr ⟨s.registries, rfl, .inl hthere, fun key => ?_⟩
    split
    · next hkey =>
      subst hkey
      rw [rowOrFresh, hrow]
      rfl
    · rfl
  | none =>
    have hmissing : ¬ s.registries.contains (nodeId, projectId) = true := by
      rw [Table.contains, hrow]
      exact Bool.false_ne_true
    rw [if_neg hmissing]
    by_cases hknown : (s.nodes.contains nodeId && s.projects.contains projectId) = true
    · rw [if_pos hknown]
      refine .inr ⟨_, rfl, .inr (Bool.and_eq_true_iff.mp hknown), fun key => ?_⟩
      rw [Table.get?_insert]
      split
      · next hkey =>
        subst hkey
        rw [rowOrFresh, hrow]
        rfl
      · exact Option.or_none
    · rw [if_neg hknown]
      exact .inl ⟨rfl, hknown⟩

/-- Of a row that was made sure of, one half is changed. -/
theorem rewrites_modify {now : Instant} {key : Int × Int} (part : Part) (f : PartRow → PartRow)
    {s : Store} {registries : Table (Int × Int) RegistryRow}
    (hknown : s.registries.contains key = true ∨
      s.nodes.contains key.1 = true ∧ s.projects.contains key.2 = true)
    (hrows : ∀ key', registries.get? key' =
      if key' = key then some (s.rowOrFresh now key) else s.registries.get? key') :
    Rewrites now key part f s { s with registries := registries.modify key (·.modify part f) } := by
  refine ⟨hknown, rfl, fun key' => ?_⟩
  rw [Table.get?_modify, hrows]
  split <;> rfl

/-- **Changing one half of a row**, and whatever is looked up afterwards: it is done as a whole, or
not at all. -/
theorem run_rewrite {α : Type} (now : Instant) (nodeId projectId : Int) (part : Part)
    (f : PartRow → PartRow) {next : Action α} (hnext : ∀ s, (next.run s).2 = s) (s : Store) :
    let a : Action α := transaction do
      ensureRegistry now nodeId projectId
      changePart nodeId projectId part f
      next
    (∃ e, a.run s = (.error e, s)) ∨
      ∃ x, (a.run s).1 = .ok x ∧ Rewrites now (nodeId, projectId) part f s (a.run s).2 := by
  intro a
  rcases run_ensureRegistry now nodeId projectId s with
    ⟨hrun, -⟩ | ⟨registries, hrun, hknown, hrows⟩
  · exact .inl ⟨.danglingReference, by simp only [a, run_transaction, run_bind, hrun]⟩
  · have hlooked := hnext
      { s with registries := registries.modify (nodeId, projectId) (·.modify part f) }
    simp only [a, run_transaction, run_bind, hrun, changePart, run_statement]
    rcases hreply : next.run
      { s with registries := registries.modify (nodeId, projectId) (·.modify part f) }
      with ⟨e | x, s'⟩
    · exact .inl ⟨e, rfl⟩
    · rw [hreply] at hlooked
      exact .inr ⟨x, rfl, hlooked ▸ rewrites_modify part f hknown hrows⟩

end Store

namespace Call

open GeoReplication.Action

/-- **Most operations leave registries and projects alone.** -/
theorem records_run {c : Call} (hc : ¬ c.Touches) (now : Instant) (s : Store) :
    (c.run now s).2.records = s.records := by
  have hplaces : .registries ∉ c.writes ∧ .projects ∉ c.writes := by
    cases c <;> first | exact absurd trivial hc | simp [writes]
  exact Prod.ext (c.sameBut_run now s .registries hplaces.1)
    (c.sameBut_run now s .projects hplaces.2)

/-! ## Recording attempts and asking for another -/

section Changes

/-- An operation fails and changes nothing, or it is answered and the store is as `p` says. -/
def Settles {α : Type} (p : Store → Prop) (s : Store) (outcome : Except Failure α × Store) : Prop :=
  (∃ e, outcome = (.error e, s)) ∨ ∃ x, outcome.1 = .ok x ∧ p outcome.2

theorem settles_lift {α : Type} {a : Action α} {p : Store → Prop} {s : Store}
    (h : (∃ e, a.run s = (.error e, s)) ∨ ∃ x, (a.run s).1 = .ok x ∧ p (a.run s).2) :
    Settles p s (lift a s) := by
  rw [lift]
  rcases h with ⟨e, hrun⟩ | ⟨x, hok, hp⟩
  · rw [hrun]
    exact .inl ⟨_, rfl⟩
  · rcases hrun : a.run s with ⟨e | x, s'⟩
    · rw [hrun] at hok
      cases hok
    · rw [hrun] at hp
      exact .inr ⟨x, rfl, hp⟩

variable (now : Instant) (nodeId projectId : Int) (part : Part) (s : Store)

theorem settles_recordSyncSuccess (started : Instant) :
    Settles (Store.Rewrites now (nodeId, projectId) part (.succeed now.stored started.stored) s) s
      ((recordSyncSuccess nodeId projectId part started).run now s) :=
  settles_lift (Store.run_rewrite now nodeId projectId part _ (fun _ => rfl) s)

theorem settles_recordSyncFailure (reason : String) :
    Settles (Store.Rewrites now (nodeId, projectId) part (.fail now.stored reason) s) s
      ((recordSyncFailure nodeId projectId part reason).run now s) :=
  settles_lift (Store.run_rewrite now nodeId projectId part _ (fun _ => rfl) s)

/-- **A request** is answered, unless it has no row and no node or project to make one for. -/
theorem run_requestResync :
    ((requestResync nodeId projectId part).run now s = (.error (.error .danglingReference), s) ∧
      ¬ (s.nodes.contains nodeId && s.projects.contains projectId) = true) ∨
      ∃ s', (requestResync nodeId projectId part).run now s = (.ok (), s') ∧
        Store.Rewrites now (nodeId, projectId) part (.requestResync now.stored) s s' := by
  rcases Store.run_ensureRegistry now nodeId projectId s with
    ⟨hrun, hunknown⟩ | ⟨registries, hrun, hknown, hrows⟩
  · refine .inl ⟨?_, hunknown⟩
    change lift (Store.requestResync now nodeId projectId part) s = _
    simp only [lift, Store.requestResync, run_transaction, run_bind, hrun]
  · refine .inr ⟨_, ?_, Store.rewrites_modify part (.requestResync now.stored) hknown hrows⟩
    change lift (Store.requestResync now nodeId projectId part) s = _
    simp only [lift, Store.requestResync, Store.changePart, run_transaction, run_bind,
      run_statement, hrun]

theorem settles_requestResync :
    Settles (Store.Rewrites now (nodeId, projectId) part (.requestResync now.stored) s) s
      ((requestResync nodeId projectId part).run now s) := by
  rcases run_requestResync now nodeId projectId part s with ⟨hrun, -⟩ | ⟨s', hrun, hw⟩
  · exact .inl ⟨_, hrun⟩
  · rw [hrun]
    exact .inr ⟨(), rfl, hw⟩

/-- A request is answered if there are a node and a project to make it for. -/
theorem run_requestResync_of_known (hnode : s.nodes.contains nodeId = true)
    (hproject : s.projects.contains projectId = true) :
    ∃ s', (requestResync nodeId projectId part).run now s = (.ok (), s') ∧
      Store.Rewrites now (nodeId, projectId) part (.requestResync now.stored) s s' :=
  (run_requestResync now nodeId projectId part s).resolve_left fun ⟨_, hunknown⟩ =>
    hunknown (Bool.and_eq_true_iff.mpr ⟨hnode, hproject⟩)

end Changes

/-! ## Where rows come from -/

/-- The half of a row that an operation changes, and how. -/
def rewrite? (now : Instant) : Call → Option ((Int × Int) × Part × (PartRow → PartRow))
  | recordSyncSuccess nodeId projectId part started =>
    some ((nodeId, projectId), part, .succeed now.stored started.stored)
  | recordSyncFailure nodeId projectId part reason =>
    some ((nodeId, projectId), part, .fail now.stored reason)
  | requestResync nodeId projectId part =>
    some ((nodeId, projectId), part, .requestResync now.stored)
  | _ => none

variable {now : Instant} {s : Store} {c : Call} {key : Int × Int} {row : RegistryRow}

theorem settles_rewrite {part : Part} {f : PartRow → PartRow}
    (hc : c.rewrite? now = some (key, part, f)) :
    Settles (Store.Rewrites now key part f s) s (c.run now s) := by
  cases c with
  | recordSyncSuccess nodeId projectId part started =>
    cases hc
    exact settles_recordSyncSuccess now nodeId projectId part s started
  | recordSyncFailure nodeId projectId part reason =>
    cases hc
    exact settles_recordSyncFailure now nodeId projectId part s reason
  | requestResync nodeId projectId part =>
    cases hc
    exact settles_requestResync now nodeId projectId part s
  | _ => cases hc

/-- Any other operation keeps rows as they are, or removes them. -/
theorem row_before (hc : c.rewrite? now = none)
    (h : (c.run now s).2.registries.get? key = some row) : s.registries.get? key = some row := by
  by_cases hplace : .registries ∈ c.writes
  · cases c with
    | deleteProject id => exact (Store.get?_of_filter h).1
    | deleteNode id => exact (Store.get?_of_filter h).1
    | deleteRegistry nodeId projectId => exact (Store.get?_of_filter h).1
    | recordSyncSuccess nodeId projectId part started => cases hc
    | recordSyncFailure nodeId projectId part reason => cases hc
    | requestResync nodeId projectId part => cases hc
    | _ => exact absurd hplace (by simp [writes])
  · have hsame : (c.run now s).2.registries = s.registries := c.sameBut_run now s .registries hplace
    rwa [hsame] at h

/-- **A row of a store** was there before the last operation, or that has changed one half of the
row that was there or of a fresh one. -/
theorem row_after (h : (c.run now s).2.registries.get? key = some row) :
    (s.registries.get? key = some row ∧
      ∀ part f, c.rewrite? now = some (key, part, f) → (c.run now s).1.isOk = false) ∨
      ∃ part f, c.rewrite? now = some (key, part, f) ∧ (c.run now s).1.isOk = true ∧
        row = (s.rowOrFresh now key).modify part f := by
  rcases hc : c.rewrite? now with _ | ⟨key', part, f⟩
  · refine .inl ⟨row_before hc h, ?_⟩
    rintro part f ⟨⟩
  · rcases settles_rewrite (s := s) hc with ⟨e, hrun⟩ | ⟨x, hok, hw⟩
    · rw [hrun] at h ⊢
      exact .inl ⟨h, fun _ _ _ => rfl⟩
    · rw [hw.rows] at h
      split at h
      · next hkey =>
        subst hkey
        exact .inr ⟨part, f, rfl, by rw [hok]; rfl, (Option.some.inj h).symm⟩
      · next hkey =>
        refine .inl ⟨h, ?_⟩
        rintro part f ⟨⟩
        exact absurd rfl hkey

end Call

end GeoReplication
