import GeoReplication.Store.Candidates

/-!
# Proofs/Store/Candidates — what candidates are, and what they depend on

Candidates are projects of the store, by number.  Which projects are seen is up to namespaces and
links, so leases have nothing to do with it.
-/

namespace GeoReplication

theorem Category.holds_of_holdsFor {c : Category} {includeWikis : Bool} {p : ProjectRow}
    {row : RegistryRow} {part : Part} (hpart : p.hasPart includeWikis part = true)
    (h : c.holdsFor p row part = true) : c.holds includeWikis p (some row) = true := by
  rw [holds]
  cases part with
  | repository => rw [h, Bool.true_or]
  | wiki => rw [hpart, h, Bool.and_true, Bool.or_true]

namespace Store

variable {s s' : Store} {f : CandidateFilter} {c : Category} {id : Int}

/-! ## Candidates are projects -/

/-- Candidates are projects, so their numbers are positive and ascend. -/
theorem allCandidates_sublist (s : Store) (f : CandidateFilter) (c : Category) :
    (s.allCandidates f c).Sublist (s.projects.rows.map Prod.fst) :=
  List.filter_sublist.map _

theorem allCandidates_pairwise (s : Store) (f : CandidateFilter) (c : Category) :
    (s.allCandidates f c).Pairwise (· < ·) :=
  s.projects.ascending.sublist (s.allCandidates_sublist f c)

theorem mem_allCandidates : id ∈ s.allCandidates f c ↔
    ∃ p, s.projects.get? id = some p ∧ s.isCandidate f c id p = true := by
  simp [allCandidates, Numbered.get?_eq_some_iff]

theorem pos_of_mem_allCandidates (h : id ∈ s.allCandidates f c) : 0 < id := by
  obtain ⟨r, hr, rfl⟩ := List.mem_map.mp ((s.allCandidates_sublist f c).subset h)
  exact (s.projects.bounded r hr).1

/-- No limit above the number of projects cuts a candidate off. -/
theorem mem_candidates {afterId : Int} {limit : Nat} (h : id ∈ s.allCandidates f c)
    (hafter : afterId < id) (hlimit : s.projects.rows.length ≤ limit) :
    id ∈ s.candidates f c afterId limit := by
  have hmem : id ∈ (s.allCandidates f c).filter fun id => afterId < id :=
    List.mem_filter.mpr ⟨h, decide_eq_true hafter⟩
  have hlength : ((s.allCandidates f c).filter fun id => afterId < id).length ≤ limit := by
    have hprojects := (s.allCandidates_sublist f c).length_le
    rw [List.length_map] at hprojects
    exact Nat.le_trans (List.length_filter_le _ _) (Nat.le_trans hprojects hlimit)
  rw [candidates, limited]
  split
  · rwa [List.take_of_length_le hlength]
  · exact hmem

/-! ## What is seen -/

theorem reachesOwn_congr (hnamespaces : s'.namespaces = s.namespaces) (hlinks : s'.links = s.links)
    (nodeId : Int) : ∀ (steps : Nat) (namespaceId : Int),
      s'.reachesOwn nodeId steps namespaceId = s.reachesOwn nodeId steps namespaceId
  | 0, namespaceId => by rw [reachesOwn, reachesOwn, hlinks]
  | steps + 1, namespaceId => by
      have ih : s'.reachesOwn nodeId steps = s.reachesOwn nodeId steps :=
        funext (reachesOwn_congr hnamespaces hlinks nodeId steps)
      rw [reachesOwn, reachesOwn, ih, hnamespaces, hlinks]

/-- What a node sees depends on namespaces and links. -/
theorem sees_congr (hnamespaces : s'.namespaces = s.namespaces) (hlinks : s'.links = s.links)
    (scope : Scope) (namespaceId : Int) : s'.sees scope namespaceId = s.sees scope namespaceId := by
  rw [sees, sees, ownsNamespace, ownsNamespace, hnamespaces, reachesOwn_congr hnamespaces hlinks]

/-- Candidates have nothing to do with leases. -/
@[simp] theorem allCandidates_setLeases (s : Store) (leases : Table String LeaseRow)
    (f : CandidateFilter) (c : Category) :
    ({ s with leases } : Store).allCandidates f c = s.allCandidates f c := by
  have hsees : ({ s with leases } : Store).sees f.scope = s.sees f.scope := by
    ext namespaceId
    apply sees_congr <;> rfl
  simp only [allCandidates, isCandidate, admits, hsees]

end Store

end GeoReplication
