import GeoReplication.Proofs.Program.Alike
import GeoReplication.Proofs.Store.Columns
import GeoReplication.Proofs.Store.UpToDate

/-!
# Proofs/Store/WithoutWikis — recording repositories in stores that differ in wikis

Recording an attempt changes one half of a registry and reads the whole row back.  In a store that
operations lead to the half for the wiki can always be read, so what is recorded of a repository,
and what is answered, is the same in two such stores that differ in wikis only.
-/

namespace GeoReplication

open GeoReplication.Store GeoReplication.Time

namespace Store

open GeoReplication.Action

variable {s s' s₁ s₁' : Store} {now : Instant} {nodeId projectId : Int} {key : Int × Int}
  {part : Part} {f : PartRow → PartRow}

/-! ## One half of one row -/

/-- There is a registry, or a node and a project to make one for. -/
def Knows (s : Store) (key : Int × Int) : Prop :=
  s.registries.contains key = true ∨
    s.nodes.contains key.1 = true ∧ s.projects.contains key.2 = true

theorem run_ensureRegistry_of_not_knows (h : ¬ s.Knows (nodeId, projectId)) (now : Instant) :
    (ensureRegistry now nodeId projectId).run s = (.error .danglingReference, s) := by
  obtain ⟨hrow, hboth⟩ := not_or.mp h
  rw [ensureRegistry, run_statement, if_neg hrow, if_neg fun hknown => hboth ?_]
  exact Bool.and_eq_true_iff.mp hknown

/-- **Changing one half of a row, then a look**: it is done just when there is a row, or a node and
a project to make one for, and the look is answered. -/
theorem run_rewrite_read {α : Type} (now : Instant) (nodeId projectId : Int) (part : Part)
    (f : PartRow → PartRow) (look : Store → Except Error α) (s : Store) :
    let a : Action α := transaction do
      ensureRegistry now nodeId projectId
      changePart nodeId projectId part f
      read look
    (¬ s.Knows (nodeId, projectId) ∧ a.run s = (.error .danglingReference, s)) ∨
      ∃ s₁, Rewrites now (nodeId, projectId) part f s s₁ ∧
        a.run s = match look s₁ with
          | .ok x => (.ok x, s₁)
          | .error e => (.error e, s) := by
  intro a
  by_cases hknown : s.Knows (nodeId, projectId)
  · rcases run_ensureRegistry now nodeId projectId s with
      ⟨hrun, hboth⟩ | ⟨registries, hrun, -, hrows⟩
    · rcases hknown with hrow | hboth'
      · rw [ensureRegistry, run_statement, if_pos hrow] at hrun
        cases hrun
      · exact absurd (Bool.and_eq_true_iff.mpr hboth') hboth
    · refine .inr ⟨_, rewrites_modify part f hknown hrows, ?_⟩
      simp only [a, run_transaction, run_bind, hrun, changePart, run_statement, run_read]
      cases look { s with
        registries := registries.modify (nodeId, projectId) (·.modify part f) } <;> rfl
  · refine .inl ⟨hknown, ?_⟩
    simp only [a, run_transaction, run_bind, run_ensureRegistry_of_not_knows hknown]

/-- What is read back is the changed row. -/
theorem Rewrites.readRegistry (h : Rewrites now key part f s s₁) (later : Instant) :
    s₁.readRegistry later key.1 key.2 =
      (((s.rowOrFresh now key).modify part f).record later key.1 key.2).map some := by
  rw [Store.readRegistry, h.rows, if_pos rfl]

end Store

/-! ## Stores that differ in wikis -/

/-- Both stores are reached by operations, and they differ at most in what is kept of wikis. -/
structure Store.WikisAside (s s' : Store) : Prop where
  records : SameButWikis s s'
  left : s.Reached
  right : s'.Reached

/-- In a store that operations lead to every half can be read. -/
theorem Store.Reached.readable {s : Store} (h : s.Reached) (now later : Instant)
    (key : Int × Int) (part : Part) (column : Nat) :
    ∃ record, ((s.rowOrFresh now key).part part).record later column = .ok record := by
  obtain ⟨deeds, hpast⟩ := h.past
  rw [rowOrFresh]
  cases hrow : s.registries.get? key with
  | some row =>
    obtain ⟨_, _, hread⟩ := (hpast.agrees hrow part).record later column
    exact ⟨_, hread⟩
  | none =>
    obtain ⟨_, _, hread⟩ := PartRow.agrees_fresh.record later column
    cases part <;> exact ⟨_, hread⟩

/-- Where the half for the wiki can be read, the half for the repository decides whether a row
can. -/
theorem RegistryRow.agree_record {row row' : RegistryRow} {record record' : SyncRecord}
    {now : Instant} (hsame : row'.repository = row.repository)
    (hwiki : row.wiki.record now 8 = .ok record) (hwiki' : row'.wiki.record now 8 = .ok record')
    (nodeId projectId : Int) :
    Agree (fun _ _ => True) (row.record now nodeId projectId)
      (row'.record now nodeId projectId) := by
  rw [RegistryRow.record, RegistryRow.record, hsame, hwiki, hwiki']
  cases row.repository.record now 2 with
  | error e => exact rfl
  | ok repository => trivial

namespace Store.WikisAside

open GeoReplication.Action

variable {s s' s₁ s₁' : Store} {now : Instant} {key : Int × Int} {f : PartRow → PartRow}

theorem knows_iff (h : WikisAside s s') (key : Int × Int) : s'.Knows key ↔ s.Knows key := by
  rw [Knows, Knows, h.records.contains_registries, h.records.contains_projects, h.records.nodes]

/-- The rows of the two stores have the same half for the repository. -/
theorem repository_rowOrFresh (h : WikisAside s s') (now : Instant) (key : Int × Int) :
    (s'.rowOrFresh now key).withoutWiki = (s.rowOrFresh now key).withoutWiki := by
  rw [rowOrFresh, rowOrFresh]
  rcases both_of_map_eq (h.records.registries key) with ⟨hr, hr'⟩ | ⟨r, r', hr, hr', hsame⟩ <;>
    rw [hr, hr']
  exact hsame

/-- The half for the repository is changed in both stores. -/
theorem rewrites (h : WikisAside s s') (hw : Rewrites now key .repository f s s₁)
    (hw' : Rewrites now key .repository f s' s₁') : SameButWikis s₁ s₁' where
  rest p hp := by
    rw [hw.rest, hw'.rest]
    have hsame := h.records.rest p hp
    cases p <;> first | exact hsame | exact absurd List.mem_cons_self hp | simp at hp
  projects id := by
    rw [hw.rest, hw'.rest]
    exact h.records.projects id
  registries key' := by
    rw [hw.rows, hw'.rows]
    split
    · have hrow := h.repository_rowOrFresh now key
      have hrepository : (s'.rowOrFresh now key).repository = (s.rowOrFresh now key).repository :=
        (congrArg RegistryRow.repository hrow :)
      have hcreated : (s'.rowOrFresh now key).createdAt = (s.rowOrFresh now key).createdAt :=
        (congrArg RegistryRow.createdAt hrow :)
      simp only [Option.map_some, RegistryRow.modify, RegistryRow.withoutWiki, hrepository,
        hcreated]
    · exact h.records.registries key'

/-- **Changing the half for a repository, then a look** that is answered in both stores or in none:
so is the whole, and the stores still differ in wikis only. -/
theorem agree_rewrite {α : Type} (h : WikisAside s s') (nodeId projectId : Int)
    {look : Store → Except Error α}
    (hlook : ∀ s₁ s₁', Rewrites now (nodeId, projectId) .repository f s s₁ →
      Rewrites now (nodeId, projectId) .repository f s' s₁' →
        Agree (fun _ _ => True) (look s₁) (look s₁')) :
    let a : Action α := transaction do
      ensureRegistry now nodeId projectId
      changePart nodeId projectId .repository f
      read look
    Agree (fun _ _ => True) (Call.lift a s).1 (Call.lift a s').1 ∧
      SameButWikis (Call.lift a s).2 (Call.lift a s').2 := by
  intro a
  rcases run_rewrite_read now nodeId projectId .repository f look s with
    ⟨hunknown, hrun⟩ | ⟨s₁, hw, hrun⟩ <;>
  rcases run_rewrite_read now nodeId projectId .repository f look s' with
    ⟨hunknown', hrun'⟩ | ⟨s₁', hw', hrun'⟩ <;>
  rw [Call.lift, Call.lift, hrun, hrun']
  · exact ⟨rfl, h.records⟩
  · exact absurd ((h.knows_iff _).mp hw'.known) hunknown
  · exact absurd ((h.knows_iff _).mpr hw.known) hunknown'
  · have hagree := hlook s₁ s₁' hw hw'
    rcases hx : look s₁ with e | x <;> rcases hx' : look s₁' with e' | x' <;> rw [hx, hx'] at hagree
    · exact ⟨congrArg _ hagree, h.records⟩
    · exact hagree.elim
    · exact hagree.elim
    · exact ⟨trivial, h.rewrites hw hw'⟩

end Store.WikisAside

/-! ## Operations of an attempt -/

/-- The project without what is known of its wiki. -/
def Project.withoutWiki (p : Project) : Project :=
  { p with wikiEnabled := false, lastWikiUpdatedAt := none }

namespace Call

variable {s s' : Store} {now : Instant}

/-- In stores that differ in wikis the operation is answered alike, and they still differ in wikis
only. -/
def Alike (c : Call) (r : c.Reply → c.Reply → Prop) : Prop :=
  ∀ now s s', s.WikisAside s' →
    Agree r (c.run now s).1 (c.run now s').1 ∧ (c.run now s).2.WikisAside (c.run now s').2

theorem Alike.intro {c : Call} {r : c.Reply → c.Reply → Prop}
    (h : ∀ now s s', s.WikisAside s' → Agree r (c.run now s).1 (c.run now s').1 ∧
      Store.SameButWikis (c.run now s).2 (c.run now s').2) : c.Alike r := fun now s s' hs =>
  ⟨(h now s s' hs).1, (h now s s' hs).2, .call now c hs.left, .call now c hs.right⟩

/-- A look at what has nothing to do with wikis. -/
theorem alike_of_read {c : Call} {f : Instant → Store → Except Error c.Reply}
    (hc : ∀ now s, c.run now s = lift (.read (f now)) s)
    (hf : ∀ now s s', s.SameButWikis s' → f now s = f now s') : c.Alike (· = ·) :=
  .intro fun now s s' h => by
    rw [hc, hc, snd_lift_read, snd_lift_read]
    exact ⟨.of_eq (fun _ => rfl) (lift_read_congr (hf now s s' h.records)), h.records⟩

theorem nodeOf?_of_sameButWikis (h : s.SameButWikis s') (r : Option (Int × NodeRow)) :
    s.nodeOf? now r = s'.nodeOf? now r := by
  simp only [Store.nodeOf?, Store.nodeOf, Store.namespacesOf, h.links]

theorem alike_getNode (id : Int) : (getNode id).Alike (· = ·) :=
  alike_of_read (fun _ _ => rfl) fun now s s' h => by
    rw [Store.readNode, Store.readNode, h.nodes, nodeOf?_of_sameButWikis h]

theorem alike_getPrimaryNode : getPrimaryNode.Alike (· = ·) :=
  alike_of_read (fun _ _ => rfl) fun now s s' h => by
    rw [Store.readPrimary, Store.readPrimary, h.nodes, nodeOf?_of_sameButWikis h]

theorem alike_getProject (id : Int) :
    (getProject id).Alike fun o o' => o.map Project.withoutWiki = o'.map Project.withoutWiki :=
  .intro fun now s s' h => by
    refine ⟨?_, h.records⟩
    have hrow := congrArg (Option.map fun row => (row.record now id).withoutWiki)
      (h.records.projects id)
    change (s.project? now id).map Project.withoutWiki =
      (s'.project? now id).map Project.withoutWiki
    rw [Store.project?, Store.project?]
    simp only [Option.map_map] at hrow ⊢
    exact hrow.symm

/-- A change of one project that does not look at its wiki. -/
theorem sameButWikis_modify (h : s.SameButWikis s') (id : Int) {g : ProjectRow → ProjectRow}
    (hg : ∀ p p', p'.withoutWiki = p.withoutWiki → (g p').withoutWiki = (g p).withoutWiki) :
    Store.SameButWikis { s with projects := s.projects.modify id g }
      { s' with projects := s'.projects.modify id g } where
  rest p hp := by
    have hsame := h.rest p hp
    cases p <;> first | exact hsame | simp at hp
  projects id' := by
    have hrow := h.projects id'
    simp only [Store.Numbered.get?_modify]
    split
    · rcases both_of_map_eq hrow with ⟨hr, hr'⟩ | ⟨r, r', hr, hr', hsame⟩ <;> rw [hr, hr']
      exact congrArg some (hg r r' hsame)
    · exact hrow
  registries := h.registries

theorem alike_expireRepositoryCache (id : Int) :
    (expireRepositoryCache id).Alike fun _ _ => True := .intro fun now s s' h => by
  refine ⟨trivial, sameButWikis_modify h.records id fun p p' hp => ?_⟩
  exact congrArg (fun p : ProjectRow => { p with sizeBytes := none }) hp

theorem alike_touchProject (id : Int) (time : Instant) :
    (touchProject id .repository time).Alike fun _ _ => True := .intro fun now s s' h => by
  have hthere := h.records.contains_projects id
  change Agree _ (lift (Store.touchProject id .repository time) s).1
      (lift (Store.touchProject id .repository time) s').1 ∧
    Store.SameButWikis (lift (Store.touchProject id .repository time) s).2
      (lift (Store.touchProject id .repository time) s').2
  simp only [lift, Store.touchProject, Action.run_statement, hthere]
  by_cases hproject : s.projects.contains id = true
  · simp only [if_pos hproject]
    refine ⟨trivial, sameButWikis_modify h.records id fun p p' hp => ?_⟩
    exact congrArg (·.touch time.stored .repository) hp
  · simp only [if_neg hproject]
    exact ⟨rfl, h.records⟩

theorem alike_requestResync (nodeId projectId : Int) :
    (requestResync nodeId projectId .repository).Alike fun _ _ => True :=
  .intro fun now s s' h => by
    have hlook : Agree (fun _ _ => True) (Except.ok () : Except Error Unit) (.ok ()) := trivial
    exact h.agree_rewrite nodeId projectId (f := .requestResync now.stored) fun _ _ _ _ => hlook

/-- What is read back of a half for a repository that was changed. -/
theorem agree_reread {nodeId projectId : Int} {f : PartRow → PartRow} {s₁ s₁' : Store}
    (h : s.WikisAside s') (hw : Store.Rewrites now (nodeId, projectId) .repository f s s₁)
    (hw' : Store.Rewrites now (nodeId, projectId) .repository f s' s₁') :
    Agree (fun _ _ => True) ((Store.rereadRegistry now nodeId projectId).run s₁).1
      ((Store.rereadRegistry now nodeId projectId).run s₁').1 := by
  obtain ⟨_, hwiki⟩ := h.left.readable now now (nodeId, projectId) .wiki 8
  obtain ⟨_, hwiki'⟩ := h.right.readable now now (nodeId, projectId) .wiki 8
  have hsame : ((s'.rowOrFresh now (nodeId, projectId)).modify .repository f).repository =
      ((s.rowOrFresh now (nodeId, projectId)).modify .repository f).repository :=
    congrArg f (congrArg RegistryRow.repository (h.repository_rowOrFresh now (nodeId, projectId)) :)
  have hagree := RegistryRow.agree_record hsame hwiki hwiki' nodeId projectId
  simp only [Store.rereadRegistry, Action.run_read, hw.readRegistry now, hw'.readRegistry now]
  revert hagree
  cases RegistryRow.record now nodeId projectId _ <;>
    cases RegistryRow.record now nodeId projectId _ <;> exact id

theorem alike_recordSyncSuccess (nodeId projectId : Int) (started : Instant) :
    (recordSyncSuccess nodeId projectId .repository started).Alike fun _ _ => True :=
  .intro fun now _ _ h => h.agree_rewrite nodeId projectId
    (f := .succeed now.stored started.stored) fun _ _ => agree_reread h

theorem alike_recordSyncFailure (nodeId projectId : Int) (reason : String) :
    (recordSyncFailure nodeId projectId .repository reason).Alike fun _ _ => True :=
  .intro fun now _ _ h => h.agree_rewrite nodeId projectId
    (f := .fail now.stored reason) fun _ _ => agree_reread h

end Call

end GeoReplication
