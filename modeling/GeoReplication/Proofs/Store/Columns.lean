import GeoReplication.Proofs.Store.Candidates
import GeoReplication.Proofs.Store.Reached
import Mathlib.Data.List.Sort

/-!
# Proofs/Store/Columns — stores that differ in some columns

Each feature has columns of its own: what is kept of wikis, the restrictions of nodes, and what
tells that something was updated.  `Store.SameButWikis`, `Store.SameButRestrictions` and
`Store.SameButUpdates` are the pairs of stores that agree in everything else.  Categories that do
not look at the columns have the same candidates in both (`SameRecords.allCandidates`).
-/

namespace GeoReplication

open GeoReplication.Store

/-- Both are missing, or both are there and `g` makes the same of them. -/
theorem both_of_map_eq {α β : Type} {g : α → β} {o o' : Option α} (h : o'.map g = o.map g) :
    (o = none ∧ o' = none) ∨ ∃ a a', o = some a ∧ o' = some a' ∧ g a' = g a := by
  cases o <;> cases o'
  · exact .inl ⟨rfl, rfl⟩
  · cases h
  · cases h
  · exact .inr ⟨_, _, rfl, rfl, Option.some.inj h⟩

/-! ## Rows without the columns -/

/-- The namespace without its place below another. -/
def NamespaceRow.withoutParent (n : NamespaceRow) : NamespaceRow := { n with parentId := none }

/-- The project without what is kept of its wiki. -/
def ProjectRow.withoutWiki (p : ProjectRow) : ProjectRow :=
  { p with wikiEnabled := false, wikiUpdatedAt := none }

/-- The project without the times of its updates. -/
def ProjectRow.withoutUpdates (p : ProjectRow) : ProjectRow :=
  { p with repositoryUpdatedAt := none, wikiUpdatedAt := none }

/-- The registry without its half for the wiki. -/
def RegistryRow.withoutWiki (r : RegistryRow) : RegistryRow := { r with wiki := .fresh }

/-- The half without the copy that was asked for. -/
def PartRow.withoutRequest (r : PartRow) : PartRow := { r with resyncAt := none }

/-- What attempts have left in a registry.  A missing one is like a fresh one, which a request
makes if there is none. -/
def RegistryRow.attempted (o : Option RegistryRow) (part : Part) : PartRow :=
  (o.elim .fresh (·.part part)).withoutRequest

namespace Store

variable {γ : Type} {project : ProjectRow → ProjectRow} {registry : Option RegistryRow → γ}
  {s s' s₁ s₁' : Store} {f : CandidateFilter} {c : Category} {id : Int} {key : Int × Int}

/-- Projects and registries differ at most in what `project` and `registry` drop, and everything
else is the same. -/
structure SameRecords (project : ProjectRow → ProjectRow) (registry : Option RegistryRow → γ)
    (s s' : Store) : Prop where
  rest : SameBut [.projects, .registries] s s'
  projects : ∀ id, (s'.projects.get? id).map project = (s.projects.get? id).map project
  registries : ∀ key, registry (s'.registries.get? key) = registry (s.registries.get? key)

/-- The stores differ at most in what is kept of wikis. -/
abbrev SameButWikis : Store → Store → Prop :=
  SameRecords ProjectRow.withoutWiki (Option.map RegistryRow.withoutWiki)

/-- The stores differ at most in the times of updates and the copies that were asked for, with the
registries made for them. -/
abbrev SameButUpdates : Store → Store → Prop :=
  SameRecords ProjectRow.withoutUpdates RegistryRow.attempted

/-- The stores differ at most in which namespaces lie below which, and which of them the nodes are
restricted to. -/
structure SameButRestrictions (s s' : Store) : Prop where
  rest : SameBut [.namespaces, .links] s s'
  namespaces : ∀ id,
    (s'.namespaces.get? id).map (·.withoutParent) = (s.namespaces.get? id).map (·.withoutParent)

/-- Leases that change alike make no difference. -/
theorem SameBut.setLeases {places : List Place} (h : SameBut places s s')
    (leases : Table String LeaseRow) :
    SameBut places { s with leases } { s' with leases } := fun p hp => by
  have hsame := h p hp
  cases p <;> first | exact hsame | rfl

namespace SameRecords

theorem setLeases (h : SameRecords project registry s s') (leases : Table String LeaseRow) :
    SameRecords project registry { s with leases } { s' with leases } :=
  ⟨h.rest.setLeases leases, h.projects, h.registries⟩

theorem refl (s : Store) : SameRecords project registry s s :=
  ⟨fun _ _ => rfl, fun _ => rfl, fun _ => rfl⟩

theorem symm (h : SameRecords project registry s s') : SameRecords project registry s' s :=
  ⟨fun p hp => (h.rest p hp).symm, fun id => (h.projects id).symm,
    fun key => (h.registries key).symm⟩

theorem trans (h : SameRecords project registry s s') (h' : SameRecords project registry s' s₁) :
    SameRecords project registry s s₁ :=
  ⟨fun p hp => (h'.rest p hp).trans (h.rest p hp), fun id => (h'.projects id).trans (h.projects id),
    fun key => (h'.registries key).trans (h.registries key)⟩

theorem namespaces (h : SameRecords project registry s s') : s'.namespaces = s.namespaces :=
  h.rest .namespaces (by simp)

theorem links (h : SameRecords project registry s s') : s'.links = s.links :=
  h.rest .links (by simp)

theorem nodes (h : SameRecords project registry s s') : s'.nodes = s.nodes :=
  h.rest .nodes (by simp)

theorem leases (h : SameRecords project registry s s') : s'.leases = s.leases :=
  h.rest .leases (by simp)

theorem project? (h : SameRecords project registry s s') {p : ProjectRow}
    (hp : s.projects.get? id = some p) :
    ∃ p', s'.projects.get? id = some p' ∧ project p' = project p := by
  have hsame := h.projects id
  rw [hp, Option.map_some] at hsame
  exact Option.map_eq_some_iff.mp hsame

theorem contains_projects (h : SameRecords project registry s s') (id : Int) :
    s'.projects.contains id = s.projects.contains id := by
  have hsame := congrArg Option.isSome (h.projects id)
  rwa [Option.isSome_map, Option.isSome_map] at hsame

/-- There are the same projects. -/
theorem projectNumbers (h : SameRecords project registry s s') :
    s'.projects.rows.map Prod.fst = s.projects.rows.map Prod.fst :=
  s'.projects.ascending.eq_of_mem_iff s.projects.ascending fun id => by
    rw [← Numbered.contains_iff_mem, ← Numbered.contains_iff_mem, h.contains_projects]

/-! ## Operations on the columns -/

section Operations

variable {now time : Time.Instant} {part : Part} {g : PartRow → PartRow}

theorem touchProject (hproject : ∀ time p, project (p.touch time part) = project p) :
    SameRecords project registry s ((Call.touchProject id part time).run now s).2 := by
  rcases run_touchProject now id part time s with hrun | hrun <;> rw [hrun]
  · exact .refl s
  · refine ⟨fun p hp => by cases p <;> first | rfl | simp at hp, fun id' => ?_, fun _ => rfl⟩
    simp only [Numbered.get?_modify]
    split
    · rw [Option.map_map]
      exact Option.map_congr fun p _ => hproject _ p
    · rfl

theorem rewrites (h : Rewrites now key part g s s')
    (hregistry : registry (some ((s.rowOrFresh now key).modify part g)) =
      registry (s.registries.get? key)) : SameRecords project registry s s' where
  rest p hp := by
    rw [h.rest]
    cases p <;> first | rfl | simp at hp
  projects id := by rw [h.rest]
  registries key' := by
    rw [h.rows]
    split
    · next hkey => rw [hkey, hregistry]
    · rfl

end Operations

/-! ## Candidates -/

section Candidates

variable (h : SameRecords project registry s s')
  (hplace : ∀ p, (project p).namespaceId = p.namespaceId ∧ (project p).storage = p.storage)
  (hholds : ∀ p p' o o', project p' = project p → registry o' = registry o →
    c.holds f.includeWikis p' o' = c.holds f.includeWikis p o)

include h hplace hholds

theorem isCandidate {p p' : ProjectRow} (hp : project p' = project p) :
    s'.isCandidate f c id p' = s.isCandidate f c id p := by
  have hnamespace : p'.namespaceId = p.namespaceId := by
    rw [← (hplace p').1, hp, (hplace p).1]
  have hstorage : p'.storage = p.storage := by
    rw [← (hplace p').2, hp, (hplace p).2]
  have hregistry := h.registries (f.scope.nodeId, id)
  rw [Store.isCandidate, Store.isCandidate, admits, admits, sees_congr h.namespaces h.links,
    hnamespace, hstorage, hholds p p' _ _ hp hregistry]

theorem mem_allCandidates_of (hid : id ∈ s.allCandidates f c) : id ∈ s'.allCandidates f c := by
  obtain ⟨p, hp, hcandidate⟩ := mem_allCandidates.mp hid
  obtain ⟨p', hp', hsame⟩ := h.project? hp
  exact mem_allCandidates.mpr ⟨p', hp', by rwa [h.isCandidate hplace hholds hsame]⟩

/-- **A category that does not look at the columns** has the same candidates. -/
theorem allCandidates : s'.allCandidates f c = s.allCandidates f c :=
  (s'.allCandidates_pairwise f c).eq_of_mem_iff (s.allCandidates_pairwise f c) fun _ =>
    ⟨h.symm.mem_allCandidates_of hplace hholds, h.mem_allCandidates_of hplace hholds⟩

end Candidates

end SameRecords

namespace SameButWikis

theorem contains_registries (h : SameButWikis s s') (key : Int × Int) :
    s'.registries.contains key = s.registries.contains key := by
  have hsame := congrArg Option.isSome (h.registries key)
  rwa [Option.isSome_map, Option.isSome_map] at hsame

/-- The wiki of a project is updated. -/
theorem touchProject (now time : Time.Instant) (id : Int) (s : Store) :
    s.SameButWikis ((Call.touchProject id .wiki time).run now s).2 :=
  SameRecords.touchProject fun _ _ => rfl

/-- An operation on the half for a wiki of a registry that is there. -/
theorem rewrite {now : Time.Instant} {c : Call} {g : PartRow → PartRow}
    (hc : c.rewrite? now = some (key, .wiki, g)) (hkey : s.registries.contains key = true) :
    s.SameButWikis (c.run now s).2 := by
  rcases Call.settles_rewrite (s := s) hc with ⟨e, hrun⟩ | ⟨-, -, hw⟩
  · rw [hrun]
    exact .refl s
  · obtain ⟨row, hrow⟩ := Option.isSome_iff_exists.mp hkey
    refine .rewrites hw ?_
    rw [rowOrFresh, hrow]
    rfl

/-- Without wikis no category looks at what is kept of them. -/
theorem allCandidates (h : SameButWikis s s') (hf : f.includeWikis = false) (c : Category) :
    s'.allCandidates f c = s.allCandidates f c := by
  refine SameRecords.allCandidates h (fun _ => ⟨rfl, rfl⟩) fun p p' o o' hp ho => ?_
  rcases both_of_map_eq ho with ⟨rfl, rfl⟩ | ⟨r, r', rfl, rfl, hr⟩
  · rfl
  have hupdated : p'.repositoryUpdatedAt = p.repositoryUpdatedAt :=
    (congrArg ProjectRow.repositoryUpdatedAt hp :)
  have hrepository : r'.repository = r.repository :=
    (congrArg RegistryRow.repository hr :)
  rw [hf]
  cases c <;> simp [Category.holds, Category.holdsFor, RegistryRow.part, ProjectRow.hasPart,
    ProjectRow.updatedAt, hupdated, hrepository]

end SameButWikis

namespace SameButUpdates

/-- Whether a part was never attempted, or has failed, can be told from what attempts have left. -/
theorem holds_eq_attempted (hc : c ≠ .dirty) (includeWikis : Bool) (p : ProjectRow)
    (o : Option RegistryRow) :
    c.holds includeWikis p o = c.holds includeWikis p
      (some ⟨RegistryRow.attempted o .repository, RegistryRow.attempted o .wiki, ""⟩) := by
  cases c with
  | dirty => exact absurd rfl hc
  | neverSynced => cases o <;> rfl
  | failed =>
    cases o with
    | some r => rfl
    | none =>
      have hfresh (part : Part) :
          ((RegistryRow.attempted none part).state == SyncState.syncFailed.word) = false := by
        cases part <;> decide
      simp only [Category.holds, Category.holdsFor, RegistryRow.part, hfresh, reduceCtorEq,
        decide_false, Bool.and_false, Bool.or_false]

/-- A project is updated. -/
theorem touchProject (now time : Time.Instant) (id : Int) (part : Part) (s : Store) :
    s.SameButUpdates ((Call.touchProject id part time).run now s).2 :=
  SameRecords.touchProject fun _ _ => by cases part <;> rfl

/-- A copy is asked for, whether there is a registry or not. -/
theorem requestResync (now : Time.Instant) (nodeId projectId : Int) (part : Part) (s : Store) :
    s.SameButUpdates ((Call.requestResync nodeId projectId part).run now s).2 := by
  rcases Call.settles_requestResync now nodeId projectId part s with ⟨e, hrun⟩ | ⟨-, -, hw⟩
  · rw [hrun]
    exact .refl s
  · refine .rewrites hw ?_
    rw [rowOrFresh]
    funext part'
    cases s.registries.get? (nodeId, projectId) <;> cases part <;> cases part' <;> rfl

/-- Only the category of updated projects looks at updates. -/
theorem allCandidates (h : SameButUpdates s s') (hc : c ≠ .dirty) :
    s'.allCandidates f c = s.allCandidates f c := by
  refine SameRecords.allCandidates h (fun _ => ⟨rfl, rfl⟩) fun p p' o o' hp ho => ?_
  have hwiki : p'.wikiEnabled = p.wikiEnabled := (congrArg ProjectRow.wikiEnabled hp :)
  rw [holds_eq_attempted hc, holds_eq_attempted hc _ p, ho]
  cases c with
  | dirty => exact absurd rfl hc
  | neverSynced => simp only [Category.holds, Category.holdsFor, ProjectRow.hasPart, hwiki]
  | failed => simp only [Category.holds, Category.holdsFor, ProjectRow.hasPart, hwiki]

end SameButUpdates

namespace SameButRestrictions

theorem setLeases (h : SameButRestrictions s s') (leases : Table String LeaseRow) :
    SameButRestrictions { s with leases } { s' with leases } :=
  ⟨h.rest.setLeases leases, h.namespaces⟩

/-- The other store is this one with other namespaces and links. -/
theorem eq (h : SameButRestrictions s s') :
    s' = { s with namespaces := s'.namespaces, links := s'.links } := by
  cases s
  cases s'
  rw [Store.mk.injEq]
  exact ⟨rfl, h.rest .projects (by simp), h.rest .nodes (by simp), rfl,
    h.rest .registries (by simp), h.rest .uploads (by simp), h.rest .lfsObjects (by simp),
    h.rest .lfsLinks (by simp), h.rest .copies (by simp), h.rest .failures (by simp),
    h.rest .events (by simp), h.rest .cursors (by simp), h.rest .leases (by simp),
    h.rest .heartbeat (by simp)⟩

/-- Unrestricted, a node sees the same candidates. -/
theorem allCandidates (h : SameButRestrictions s s') (hf : f.scope.restricted = false)
    (c : Category) : s'.allCandidates f c = s.allCandidates f c := by
  rw [h.eq]
  simp only [Store.allCandidates, isCandidate, admits, sees, hf, Bool.not_false, Bool.true_or]

end SameButRestrictions

end Store

end GeoReplication
