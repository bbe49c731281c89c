import GeoReplication.Proofs.Store.Candidates
import GeoReplication.Proofs.Store.Nodes

/-!
# Proofs/Store/Restricted — restricting a node never shows more

    linked to fewer  ⊆  linked to more  ⊆  not restricted

One thing grows with the links of a node: which namespaces it owns (`Store.reachesOwn_mono`).  What
is counted and what is listed asks for nothing else of the links, and never for its negation, so it
grows too (`Store.Within.showsLess`).
-/

namespace GeoReplication

open GeoReplication.Time

namespace Store

variable {s s' : Store} {scope scope' : Scope} {nodeId id : Int}

/-! ## What is owned -/

theorem reachesOwn_mono (hnamespaces : s'.namespaces = s.namespaces)
    (hlinks : ∀ id, s.links.contains (nodeId, id) = true → s'.links.contains (nodeId, id) = true) :
    ∀ (steps : Nat) (id : Int), s.reachesOwn nodeId steps id = true →
      s'.reachesOwn nodeId steps id = true
  | 0, id, h => hlinks id h
  | steps + 1, id, h => by
      rw [reachesOwn, Bool.or_eq_true_iff, Option.any_eq_true] at h ⊢
      rw [hnamespaces]
      refine h.imp (hlinks id) ?_
      rintro ⟨parent, hparent, hreach⟩
      exact ⟨parent, hparent, reachesOwn_mono hnamespaces hlinks steps parent hreach⟩

theorem ownsNamespace_mono (hnamespaces : s'.namespaces = s.namespaces)
    (hlinks : ∀ id, s.links.contains (nodeId, id) = true → s'.links.contains (nodeId, id) = true)
    (h : s.ownsNamespace nodeId id = true) : s'.ownsNamespace nodeId id = true := by
  rw [ownsNamespace, hnamespaces]
  exact reachesOwn_mono hnamespaces hlinks _ _ h

/-! ## What is seen -/

/-- The same node looks at stores that differ in links only; where it is restricted in the second,
it is so in the first, and owns no more there. -/
structure Within (s : Store) (scope : Scope) (s' : Store) (scope' : Scope) : Prop where
  node : scope'.nodeId = scope.nodeId
  rest : s' = { s with links := s'.links }
  owns : scope'.restricted = true → scope.restricted = true ∧
    ∀ id, s.ownsNamespace scope.nodeId id = true → s'.ownsNamespace scope.nodeId id = true

namespace Within

/-- What is seen if it is owned, or if nothing is restricted. -/
theorem unrestricted_or (h : Within s scope s' scope') {p p' : Bool}
    (hp : (∀ id, s.ownsNamespace scope.nodeId id = true → s'.ownsNamespace scope.nodeId id = true) →
      p = true → p' = true)
    (hseen : (!scope.restricted || p) = true) : (!scope'.restricted || p') = true := by
  cases hrestricted : scope'.restricted with
  | false => rfl
  | true =>
    obtain ⟨hscope, howns⟩ := h.owns hrestricted
    rw [hscope] at hseen
    exact hp howns hseen

theorem projects (h : Within s scope s' scope') : s'.projects = s.projects := by rw [h.rest]

theorem sees (h : Within s scope s' scope') (hseen : s.sees scope id = true) :
    s'.sees scope' id = true :=
  h.unrestricted_or (fun howns => by rw [h.node]; exact howns id) hseen

theorem seesLfsObject (h : Within s scope s' scope') (hseen : s.seesLfsObject scope id = true) :
    s'.seesLfsObject scope' id = true := by
  refine h.unrestricted_or (fun howns => ?_) hseen
  have hlfsLinks : s'.lfsLinks = s.lfsLinks := by rw [h.rest]
  rw [hlfsLinks, h.projects, h.node, List.any_eq_true, List.any_eq_true]
  rintro ⟨r, hr, hlink⟩
  rw [Bool.and_eq_true_iff, Option.any_eq_true] at hlink
  obtain ⟨hid, p, hp, howned⟩ := hlink
  refine ⟨r, hr, ?_⟩
  rw [Bool.and_eq_true_iff, Option.any_eq_true]
  exact ⟨hid, p, hp, howns _ howned⟩

theorem seesUpload (h : Within s scope s' scope') {u : NewUpload}
    (hseen : s.seesUpload scope u = true) : s'.seesUpload scope' u = true := by
  refine h.unrestricted_or (fun howns => ?_) hseen
  rw [h.projects, h.node]
  cases u.modelType with
  | project =>
    dsimp only
    rw [Option.any_eq_true, Option.any_eq_true]
    rintro ⟨p, hp, howned⟩
    exact ⟨p, hp, howns _ howned⟩
  | group => exact howns _
  | user => exact fun hnone => hnone

theorem visibleProjects (h : Within s scope s' scope') :
    (s.visibleProjects scope).Sublist (s'.visibleProjects scope') := by
  rw [Store.visibleProjects, Store.visibleProjects, h.projects]
  exact List.monotone_filter_right _ fun r => h.sees

theorem visibleFiles (h : Within s scope s' scope') (c : FileClass) :
    (s.visibleFiles scope c).Sublist (s'.visibleFiles scope' c) := by
  have hlfsObjects : s'.lfsObjects = s.lfsObjects := by rw [h.rest]
  have huploads : s'.uploads = s.uploads := by rw [h.rest]
  cases c with
  | lfsObjects =>
    rw [Store.visibleFiles, Store.visibleFiles, hlfsObjects]
    exact (List.monotone_filter_right _ fun r => h.seesLfsObject).map _
  | attachments =>
    rw [Store.visibleFiles, Store.visibleFiles, huploads]
    exact (List.monotone_filter_right _ fun r => h.seesUpload).map _

theorem allCandidates (h : Within s scope s' scope') (storages : List String) (includeWikis : Bool)
    (c : Category) :
    (s.allCandidates ⟨scope, storages, includeWikis⟩ c).Sublist
      (s'.allCandidates ⟨scope', storages, includeWikis⟩ c) := by
  have hregistries : s'.registries = s.registries := by rw [h.rest]
  rw [Store.allCandidates, Store.allCandidates, h.projects]
  refine (List.monotone_filter_right _ fun r hr => ?_).map _
  simp only [isCandidate, admits, Bool.and_eq_true_iff] at hr ⊢
  rw [hregistries, h.node]
  exact ⟨⟨h.sees hr.1.1, hr.1.2⟩, hr.2⟩

end Within

/-! ## Pages -/

/-- A page of fewer numbers has nothing that is missing on the page of more, unless that one is full
and ends before. -/
theorem mem_limited_of_sublist {ids ids' : List Int} (hsub : ids.Sublist ids')
    (hascending : ids'.Pairwise (· < ·)) {limit : Nat} (h : id ∈ limited limit ids) :
    id ∈ limited limit ids' ∨
      (limited limit ids').length = limit ∧ ∀ id' ∈ limited limit ids', id' < id := by
  by_cases hlimit : limit < Nat.pow 2 63
  · rw [limited, if_pos hlimit] at h ⊢
    have hmem := hsub.subset (List.mem_of_mem_take h)
    rw [← List.take_append_drop limit ids'] at hmem hascending
    rcases List.mem_append.mp hmem with htake | hdrop
    · exact .inl htake
    · refine .inr ⟨List.length_take_of_le ?_, fun id' hid' => ?_⟩
      · have hlength := List.length_pos_of_mem hdrop
        rw [List.length_drop] at hlength
        omega
      · exact (List.pairwise_append.mp hascending).2.2 id' hid' id hdrop
  · rw [limited, if_neg hlimit] at h ⊢
    exact .inl (hsub.subset h)

/-- A limit above the number of projects cuts nothing off, nor does one of 63 bits or more. -/
theorem candidates_of_limit {f : CandidateFilter} {c : Category} {afterId : Int} {limit : Nat}
    (h : s.projects.rows.length ≤ limit ∨ Nat.pow 2 63 ≤ limit) :
    s.candidates f c afterId limit = (s.allCandidates f c).filter fun id => afterId < id := by
  rw [candidates, limited]
  split
  · next hlimit =>
    refine List.take_of_length_le ((List.length_filter_le _ _).trans ?_)
    have hlength := (s.allCandidates_sublist f c).length_le
    rw [List.length_map] at hlength
    exact hlength.trans (h.resolve_right (Nat.not_le.mpr hlimit))
  · rfl

/-! ## What is shown -/

/-- One view of a store shows no more than another. -/
structure ShowsLess (s : Store) (scope : Scope) (s' : Store) (scope' : Scope) : Prop where
  projects : s.projectCount scope ≤ s'.projectCount scope'
  registries : ∀ part state, s.registryCount scope part state ≤ s'.registryCount scope' part state
  total : ∀ c, (s.fileCounts scope c).total ≤ (s'.fileCounts scope' c).total
  synced : ∀ c, (s.fileCounts scope c).synced ≤ (s'.fileCounts scope' c).synced
  failed : ∀ c, (s.fileCounts scope c).failed ≤ (s'.fileCounts scope' c).failed
  /-- as long as no limit cuts candidates off -/
  candidates : ∀ storages includeWikis c afterId limit,
    s.projects.rows.length ≤ limit ∨ Nat.pow 2 63 ≤ limit →
    (s.candidates ⟨scope, storages, includeWikis⟩ c afterId limit).Sublist
      (s'.candidates ⟨scope', storages, includeWikis⟩ c afterId limit)
  /-- where a limit does, candidates are missing behind the page only -/
  pages : ∀ storages includeWikis c afterId limit,
    ∀ id ∈ s.candidates ⟨scope, storages, includeWikis⟩ c afterId limit,
      id ∈ s'.candidates ⟨scope', storages, includeWikis⟩ c afterId limit ∨
        (s'.candidates ⟨scope', storages, includeWikis⟩ c afterId limit).length = limit ∧
          ∀ id' ∈ s'.candidates ⟨scope', storages, includeWikis⟩ c afterId limit, id' < id

/-- **What is seen decides what is shown.** -/
theorem Within.showsLess (h : Within s scope s' scope') : ShowsLess s scope s' scope' where
  projects := h.visibleProjects.length_le
  registries part state := by
    have hregistries : s'.registries = s.registries := by rw [h.rest]
    rw [registryCount, registryCount, hregistries, h.node, h.projects]
    refine (List.monotone_filter_right _ fun r hr => ?_).length_le
    rw [Bool.and_eq_true_iff, Option.any_eq_true] at hr ⊢
    obtain ⟨hstate, p, hp, hseen⟩ := hr
    exact ⟨hstate, p, hp, h.sees hseen⟩
  total c := (h.visibleFiles c).length_le
  synced c := by
    have hcopies : s'.copies = s.copies := by rw [h.rest]
    change (List.filter _ _).length ≤ (List.filter _ _).length
    simp only [hasCopy, hcopies, h.node]
    exact ((h.visibleFiles c).filter _).length_le
  failed c := by
    have hcopies : s'.copies = s.copies := by rw [h.rest]
    have hfailures : s'.failures = s.failures := by rw [h.rest]
    change (List.filter _ _).length ≤ (List.filter _ _).length
    simp only [hasCopy, hasFailure, hcopies, hfailures, h.node]
    exact ((h.visibleFiles c).filter _).length_le
  candidates storages includeWikis c afterId limit hlimit := by
    have hlimit' : s'.projects.rows.length ≤ limit ∨ Nat.pow 2 63 ≤ limit := by rwa [h.projects]
    rw [candidates_of_limit hlimit, candidates_of_limit hlimit']
    exact (h.allCandidates storages includeWikis c).filter _
  pages storages includeWikis c afterId limit id hid := by
    have hsub := (h.allCandidates storages includeWikis c).filter fun id => afterId < id
    have hascending := (s'.allCandidates_pairwise ⟨scope', storages, includeWikis⟩ c).filter
      fun id => afterId < id
    exact mem_limited_of_sublist hsub hascending hid

theorem showsLess_relinked (s : Store) (nodeId : Int) {fewer more : List Int} (h : fewer ⊆ more) :
    ShowsLess { s with links := s.relinked nodeId fewer } ⟨nodeId, true⟩
      { s with links := s.relinked nodeId more } ⟨nodeId, true⟩ := by
  refine Within.showsLess ⟨rfl, rfl, fun _ => ⟨rfl, fun _ => ownsNamespace_mono rfl ?_⟩⟩
  intro id hid
  rw [contains_relinked, if_pos rfl] at hid ⊢
  exact h hid

theorem showsLess_unrestricted (s : Store) (nodeId : Int) (links : Table (Int × Int) Unit) :
    ShowsLess s ⟨nodeId, true⟩ { s with links } ⟨nodeId, false⟩ :=
  Within.showsLess ⟨rfl, rfl, fun hrestricted => by cases hrestricted⟩

/-- **Restricting never shows more.**  A node that is restricted to some namespaces is shown no more
than one that is restricted to these and others, and that one no more than a node without
restriction, whatever it is linked to.  In particular so when a node is changed to list the one or
the other. -/
theorem restriction_mono (s : Store) (nodeId : Int) {fewer more : List Int} (h : fewer ⊆ more) :
    ShowsLess { s with links := s.relinked nodeId fewer } ⟨nodeId, true⟩
      { s with links := s.relinked nodeId more } ⟨nodeId, true⟩ ∧
    (∀ links, ShowsLess { s with links := s.relinked nodeId more } ⟨nodeId, true⟩
      { s with links } ⟨nodeId, false⟩) ∧
    ∀ (now : Instant) (n : Node) (s₁ s₂ : Store), n.id = nodeId →
      (Call.updateNode { n with namespaceIds := fewer }).run now s = (.ok (), s₁) →
      (Call.updateNode { n with namespaceIds := more }).run now s = (.ok (), s₂) →
      ShowsLess s₁ ⟨nodeId, true⟩ s₂ ⟨nodeId, true⟩ ∧
        ShowsLess s₂ ⟨nodeId, true⟩ s₂ ⟨nodeId, false⟩ := by
  refine ⟨s.showsLess_relinked nodeId h, fun links => showsLess_unrestricted _ nodeId links, ?_⟩
  rintro now n s₁ s₂ rfl hfewer hmore
  obtain ⟨old, hold⟩ := Call.alters_of_run hfewer
  obtain ⟨old', hold'⟩ := Call.alters_of_run hmore
  obtain rfl := Option.some.inj (hold.there.symm.trans hold'.there)
  refine ⟨?_, showsLess_unrestricted s₂ n.id s₂.links⟩
  rw [hold.store, hold'.store]
  -- the two changes write the same row, so they differ in links only
  exact showsLess_relinked { s with nodes := s.nodes.modify n.id fun _ => n.rowOver now old } n.id h

/-- Three projects: one in a linked namespace, one below another that is linked in the second view
only, and one elsewhere. -/
theorem restriction_mono_nested : ∃ s : Store,
    ShowsLess { s with links := s.relinked 1 [3] } ⟨1, true⟩
      { s with links := s.relinked 1 [3, 1] } ⟨1, true⟩ ∧
    ShowsLess { s with links := s.relinked 1 [3, 1] } ⟨1, true⟩ s ⟨1, false⟩ ∧
    projectCount { s with links := s.relinked 1 [3] } ⟨1, true⟩ = 1 ∧
    projectCount { s with links := s.relinked 1 [3, 1] } ⟨1, true⟩ = 2 ∧
    projectCount s ⟨1, false⟩ = 3 := by
  refine ⟨{ Store.empty with
    namespaces := (((Numbered.empty.insert ⟨"group", none, ""⟩).insert ⟨"below", some 1, ""⟩).insert
      ⟨"other", none, ""⟩).insert ⟨"elsewhere", none, ""⟩
    projects := ((Numbered.empty.insert
      ⟨2, "a", "group/below/a", "default", false, none, none, none, ""⟩).insert
      ⟨3, "b", "other/b", "default", false, none, none, none, ""⟩).insert
      ⟨4, "c", "elsewhere/c", "default", false, none, none, none, ""⟩ }, ?_, ?_, rfl, rfl, rfl⟩
  · exact (restriction_mono _ 1 (by simp)).1
  · exact (restriction_mono _ 1 (List.Subset.refl [3, 1])).2.1 _

end Store

end GeoReplication
