import Mathlib.Data.List.Perm.Subperm
import Mathlib.Order.Basic
import GeoReplication.Proofs.Store.Counts
import GeoReplication.Proofs.Store.Restricted

/-!
# Proofs/Store/InScope — what a restricted node sees

    parent links, any number of them, to a namespace of the node

Parent links may run in circles, so two bounds are at work.  A walk upwards visits, before it first
comes to a namespace of the node, no namespace twice (`ownsNamespace_of_climb`), which is why as
many steps as there are namespaces are enough (`ownsNamespace_iff`).  An expansion downwards
(`Store.expand`) holds no namespace twice and nothing but linked ones and ones of the table, so it
comes to an end (`expand_end`), and at its end it holds what is in scope (`mem_expand_iff`).
-/

namespace GeoReplication

open GeoReplication.Time

namespace Store

variable {s : Store} {nodeId id : Int}

/-- The namespace above. -/
def parent? (s : Store) (id : Int) : Option Int := (s.namespaces.get? id).bind (·.parentId)

/-- A namespace of the node is reached by following parent links, none or more. -/
inductive InScope (s : Store) (nodeId : Int) : Int → Prop
  | own {id : Int} : s.links.contains (nodeId, id) = true → InScope s nodeId id
  | up {id parent : Int} : s.parent? id = some parent → InScope s nodeId parent →
      InScope s nodeId id

/-! ## Walking upwards -/

/-- One link further up, unless the walk has ended. -/
def climb (s : Store) : Option Int → Option Int := (·.bind s.parent?)

/-- The walk is at a namespace of the node. -/
def IsOwn (s : Store) (nodeId : Int) (place : Option Int) : Prop :=
  ∃ id ∈ place, s.links.contains (nodeId, id) = true

/-- A walk that has ended stays so. -/
theorem climb_none (k : Nat) : s.climb^[k] none = none := Function.iterate_fixed rfl k

theorem reachesOwn_iff {steps : Nat} :
    s.reachesOwn nodeId steps id = true ↔ ∃ k ≤ steps, s.IsOwn nodeId (s.climb^[k] (some id)) := by
  induction steps generalizing id with
  | zero => simp [reachesOwn, IsOwn]
  | succ steps ih =>
    have habove : ((s.parent? id).any (s.reachesOwn nodeId steps) = true) ↔
        ∃ k ≤ steps, s.IsOwn nodeId (s.climb^[k] (s.parent? id)) := by
      cases hparent : s.parent? id with
      | none => simp [climb_none, IsOwn]
      | some parent => exact ih
    rw [reachesOwn, Bool.or_eq_true_iff]
    refine Iff.trans (or_congr Iff.rfl habove) ⟨?_, ?_⟩
    · rintro (hown | ⟨k, hk, hown⟩)
      · exact ⟨0, Nat.zero_le _, id, rfl, hown⟩
      · exact ⟨k + 1, Nat.succ_le_succ hk, hown⟩
    · rintro ⟨_ | k, hk, hown⟩
      · obtain ⟨_, ⟨⟩, hown⟩ := hown
        exact .inl hown
      · exact .inr ⟨k, Nat.le_of_succ_le_succ hk, hown⟩

/-- A place that the walk leaves is a namespace of the table. -/
theorem climb_mem_table {k i : Nat} (h : s.climb^[k] (some id) ≠ none) (hi : i < k) :
    s.climb^[i] (some id) ∈ (s.namespaces.rows.map Prod.fst).map some := by
  have hnext : s.climb^[i + 1] (some id) ≠ none := by
    intro hnone
    obtain ⟨j, rfl⟩ := Nat.exists_eq_add_of_le' (Nat.succ_le_of_lt hi)
    rw [Nat.succ_eq_add_one, Function.iterate_add_apply, hnone, climb_none] at h
    exact h rfl
  rw [Function.iterate_succ_apply'] at hnext
  obtain ⟨_, habove⟩ := Option.ne_none_iff_exists'.mp hnext
  obtain ⟨here, hhere, hparent⟩ := Option.bind_eq_some_iff.mp habove
  obtain ⟨row, hrow, -⟩ := Option.bind_eq_some_iff.mp hparent
  rw [hhere]
  exact List.mem_map_of_mem (List.mem_map_of_mem (Numbered.get?_eq_some_iff.mp hrow))

/-- **A walk comes to a namespace of the node within as many steps as there are namespaces**, or
never. -/
theorem ownsNamespace_of_climb {k : Nat} (h : s.IsOwn nodeId (s.climb^[k] (some id))) :
    s.ownsNamespace nodeId id = true := by
  classical
  have hex : ∃ k, s.IsOwn nodeId (s.climb^[k] (some id)) := ⟨k, h⟩
  have hfirst := Nat.find_spec hex
  refine reachesOwn_iff.mpr ⟨Nat.find hex, ?_, hfirst⟩
  -- a place visited twice would let the walk take a shorter way
  have hshorter {i j : Nat} (hij : i < j) (hj : j < Nat.find hex)
      (heq : s.climb^[i] (some id) = s.climb^[j] (some id)) : False := by
    refine Nat.find_min hex (by omega : Nat.find hex - j + i < Nat.find hex) ?_
    rw [Function.iterate_add_apply, heq, ← Function.iterate_add_apply,
      Nat.sub_add_cancel (Nat.le_of_lt hj)]
    exact hfirst
  have hnodup : ((List.range (Nat.find hex)).map fun i => s.climb^[i] (some id)).Nodup := by
    refine List.Nodup.map_on (fun i hi j hj heq => ?_) List.nodup_range
    rw [List.mem_range] at hi hj
    rcases Nat.lt_trichotomy i j with hij | rfl | hji
    · exact (hshorter hij hj heq).elim
    · rfl
    · exact (hshorter hji hi heq.symm).elim
  have hplaces : ((List.range (Nat.find hex)).map fun i => s.climb^[i] (some id)) ⊆
      (s.namespaces.rows.map Prod.fst).map some := by
    intro place hplace
    obtain ⟨i, hi, rfl⟩ := List.mem_map.mp hplace
    refine climb_mem_table (fun hnone => ?_) (List.mem_range.mp hi)
    obtain ⟨_, hend, -⟩ := hfirst
    rw [hnone] at hend
    cases hend
  simpa using (hnodup.subperm hplaces).length_le

/-- **Owned is what is in scope.** -/
theorem ownsNamespace_iff : s.ownsNamespace nodeId id = true ↔ s.InScope nodeId id := by
  constructor
  · rw [ownsNamespace]
    generalize s.namespaces.rows.length = steps
    induction steps generalizing id with
    | zero => exact .own
    | succ steps ih =>
      intro h
      rw [reachesOwn, Bool.or_eq_true_iff, Option.any_eq_true] at h
      rcases h with hown | ⟨parent, hparent, habove⟩
      · exact .own hown
      · exact .up hparent (ih habove)
  · intro h
    suffices hclimb : ∃ k, s.IsOwn nodeId (s.climb^[k] (some id)) from
      ownsNamespace_of_climb hclimb.choose_spec
    induction h with
    | own hown => exact ⟨0, _, rfl, hown⟩
    | @up id parent hparent _ ih =>
      obtain ⟨k, hown⟩ := ih
      refine ⟨k + 1, ?_⟩
      have hstep : s.climb (some id) = some parent := hparent
      rwa [Function.iterate_succ_apply, hstep]

/-! ## Expanding downwards -/

/-- The namespaces under a parent. -/
def childrenOf (s : Store) (parent : Int) : List Int :=
  (s.namespaces.rows.filter fun r => r.2.parentId = some parent).map Prod.fst

/-- The scope of a node after some steps of its expansion: it begins with the linked namespaces, and
step `n` takes the one at place `n`, if there is one, and appends those under it that are not there
yet. -/
def expand (s : Store) (nodeId : Int) : Nat → List Int
  | 0 => s.namespacesOf nodeId
  | n + 1 =>
    let scope := s.expand nodeId n
    scope ++ (scope[n]?.elim [] s.childrenOf).filter (· ∉ scope)

theorem mem_childrenOf {parent : Int} :
    id ∈ s.childrenOf parent ↔ s.parent? id = some parent := by
  rw [childrenOf, List.mem_map, parent?, Option.bind_eq_some_iff]
  constructor
  · rintro ⟨r, hr, rfl⟩
    obtain ⟨hr, hparent⟩ := List.mem_filter.mp hr
    exact ⟨r.2, Numbered.get?_eq_some_iff.mpr hr, of_decide_eq_true hparent⟩
  · rintro ⟨row, hrow, hparent⟩
    exact ⟨(id, row), List.mem_filter.mpr
      ⟨Numbered.get?_eq_some_iff.mp hrow, decide_eq_true hparent⟩, rfl⟩

theorem childrenOf_nodup (parent : Int) : (s.childrenOf parent).Nodup :=
  s.namespaces.nodup.sublist (List.filter_sublist.map _)

/-- No namespace is there twice. -/
theorem expand_nodup (n : Nat) : (s.expand nodeId n).Nodup := by
  induction n with
  | zero => exact (s.namespacesOf_pairwise nodeId).imp Int.ne_of_lt
  | succ n ih =>
    refine List.nodup_append.mpr ⟨ih, ?_, ?_⟩
    · refine List.Nodup.filter _ ?_
      cases (s.expand nodeId n)[n]? with
      | none => exact List.nodup_nil
      | some parent => exact childrenOf_nodup parent
    · rintro a ha _ hb rfl
      exact of_decide_eq_true (List.mem_filter.mp hb).2 ha

/-- A step adds namespaces under one that is there. -/
theorem mem_expand_succ {n : Nat} : id ∈ s.expand nodeId (n + 1) ↔ id ∈ s.expand nodeId n ∨
    ∃ parent, (s.expand nodeId n)[n]? = some parent ∧ s.parent? id = some parent := by
  rw [expand, List.mem_append, List.mem_filter, decide_eq_true_iff]
  have hunder : id ∈ (s.expand nodeId n)[n]?.elim [] s.childrenOf ↔
      ∃ parent, (s.expand nodeId n)[n]? = some parent ∧ s.parent? id = some parent := by
    cases (s.expand nodeId n)[n]? with
    | none => simp
    | some parent => simp [mem_childrenOf]
  rw [hunder]
  tauto

theorem inScope_of_mem_expand {n : Nat} (h : id ∈ s.expand nodeId n) : s.InScope nodeId id := by
  induction n generalizing id with
  | zero => exact .own (mem_namespacesOf.mp h)
  | succ n ih =>
    rcases mem_expand_succ.mp h with h | ⟨parent, hplace, hparent⟩
    · exact ih h
    · exact .up hparent (ih (List.mem_of_getElem? hplace))

/-- There is no room for more than the linked namespaces and those of the table. -/
theorem length_expand_le (n : Nat) : (s.expand nodeId n).length ≤
    (s.namespacesOf nodeId).length + s.namespaces.rows.length := by
  have hsubset : s.expand nodeId n ⊆ s.namespacesOf nodeId ++ s.namespaces.rows.map Prod.fst := by
    intro id h
    rw [List.mem_append, mem_namespacesOf]
    cases inScope_of_mem_expand h with
    | own hown => exact .inl hown
    | up hparent _ =>
      obtain ⟨row, hrow, -⟩ := Option.bind_eq_some_iff.mp hparent
      exact .inr (List.mem_map_of_mem (Numbered.get?_eq_some_iff.mp hrow))
  have hlength := ((expand_nodup n).subperm hsubset).length_le
  rwa [List.length_append, List.length_map] at hlength

/-- After a step for each place there are no more. -/
theorem expand_of_length_le {n m : Nat} (h : (s.expand nodeId n).length ≤ n) (hm : n ≤ m) :
    s.expand nodeId m = s.expand nodeId n := by
  induction m, hm using Nat.le_induction with
  | base => rfl
  | succ m hm ih =>
    rw [expand, ih, List.getElem?_eq_none (h.trans hm)]
    exact List.append_nil _

/-- What is under a place that has had its step is there. -/
theorem mem_expand_of_parent {n i : Nat} {parent : Int} (hi : i < n)
    (hplace : (s.expand nodeId n)[i]? = some parent) (hparent : s.parent? id = some parent) :
    id ∈ s.expand nodeId n := by
  induction n with
  | zero => cases hi
  | succ n ih =>
    by_cases hlength : i < (s.expand nodeId n).length
    · rw [expand, List.getElem?_append_left hlength] at hplace
      rw [mem_expand_succ]
      rcases Nat.lt_succ_iff_lt_or_eq.mp hi with hi | rfl
      · exact .inl (ih hi hplace)
      · exact .inr ⟨parent, hplace, hparent⟩
    · rw [expand_of_length_le (by omega) (Nat.le_succ n),
        List.getElem?_eq_none (Nat.not_lt.mp hlength)] at hplace
      cases hplace

/-- **The expansion comes to an end**, and what it holds then is in scope, and nothing else is. -/
theorem expand_end : ∃ n ≤ (s.namespacesOf nodeId).length + s.namespaces.rows.length,
    (∀ m ≥ n, s.expand nodeId m = s.expand nodeId n) ∧
      ∀ id, id ∈ s.expand nodeId n ↔ s.InScope nodeId id := by
  have hlength := @length_expand_le s nodeId
    ((s.namespacesOf nodeId).length + s.namespaces.rows.length)
  refine ⟨_, le_rfl, fun m hm => expand_of_length_le hlength hm, fun id =>
    ⟨inScope_of_mem_expand, fun h => ?_⟩⟩
  induction h with
  | own hown =>
    generalize (s.namespacesOf nodeId).length + s.namespaces.rows.length = n
    induction n with
    | zero => exact mem_namespacesOf.mpr hown
    | succ n ih => exact mem_expand_succ.mpr (.inl ih)
  | up hparent _ ih =>
    obtain ⟨i, hi, hplace⟩ := List.getElem_of_mem ih
    exact mem_expand_of_parent (hi.trans_le hlength) (List.getElem?_eq_some_iff.mpr ⟨hi, hplace⟩)
      hparent

/-! ## What is counted and listed -/

/-- What a restricted node is shown, where `ids` are the projects in its scope: how many there are,
how many registries in a state they have, and those of them that it would find without a
restriction. -/
structure ShowsJust (s : Store) (now : Instant) (nodeId : Int) (ids : List Int) : Prop where
  projects : ((Call.countProjects ⟨nodeId, true⟩).run now s).1 = .ok ids.length
  registries : ∀ part state,
    ((Call.countRegistries ⟨nodeId, true⟩ part state).run now s).1 =
      .ok (ids.filter (s.isIn nodeId part state)).length
  candidates : ∀ c storages includeWikis afterId limit,
    ((Call.findCandidates c ⟨⟨nodeId, true⟩, storages, includeWikis⟩ afterId limit).run now s).1 =
      .ok (limited limit (ids.filter fun id =>
        afterId < id ∧ id ∈ s.allCandidates ⟨⟨nodeId, false⟩, storages, includeWikis⟩ c))

theorem sees_restricted_iff : s.sees ⟨nodeId, true⟩ id = true ↔ s.InScope nodeId id :=
  ownsNamespace_iff

theorem visibleProjects_ascending (scope : Scope) :
    ((s.visibleProjects scope).map Prod.fst).Pairwise (· < ·) :=
  s.projects.ascending.sublist (List.filter_sublist.map _)

theorem mem_visibleProjects : id ∈ (s.visibleProjects ⟨nodeId, true⟩).map Prod.fst ↔
    ∃ p, s.projects.get? id = some p ∧ s.InScope nodeId p.namespaceId := by
  simp [visibleProjects, Numbered.get?_eq_some_iff, sees_restricted_iff]

/-- What a restricted node finds is what it would find without a restriction, in its scope. -/
theorem mem_allCandidates_restricted {storages : List String} {includeWikis : Bool} {c : Category} :
    id ∈ s.allCandidates ⟨⟨nodeId, true⟩, storages, includeWikis⟩ c ↔
      (∃ p, s.projects.get? id = some p ∧ s.InScope nodeId p.namespaceId) ∧
        id ∈ s.allCandidates ⟨⟨nodeId, false⟩, storages, includeWikis⟩ c := by
  simp only [mem_allCandidates, isCandidate, admits, Bool.and_eq_true_iff, sees_restricted_iff]
  constructor
  · rintro ⟨p, hp, ⟨hscope, hstorage⟩, hcategory⟩
    exact ⟨⟨p, hp, hscope⟩, p, hp, ⟨rfl, hstorage⟩, hcategory⟩
  · rintro ⟨⟨p, hp, hscope⟩, p', hp', ⟨-, hstorage⟩, hcategory⟩
    cases hp.symm.trans hp'
    exact ⟨p, hp, ⟨hscope, hstorage⟩, hcategory⟩

theorem showsJust (now : Instant) :
    s.ShowsJust now nodeId ((s.visibleProjects ⟨nodeId, true⟩).map Prod.fst) where
  projects := by
    rw [List.length_map]
    rfl
  registries part state := by
    rw [List.filter_map, List.length_map, ← List.countP_eq_length_filter]
    exact congrArg Except.ok (registryCount_eq s ⟨nodeId, true⟩ part state)
  candidates c storages includeWikis afterId limit := by
    refine congrArg (fun found => Except.ok (limited limit found)) ?_
    refine ((allCandidates_pairwise _ _ _).filter _).eq_of_mem_iff
      ((visibleProjects_ascending _).filter _) fun id => ?_
    rw [List.mem_filter, List.mem_filter, mem_allCandidates_restricted, mem_visibleProjects,
      Bool.decide_and, Bool.and_eq_true_iff, decide_eq_true_iff, decide_eq_true_iff]
    tauto

/-- **What a restricted node sees is just what is in its scope, and once.**  Whatever the parent
links are, also in circles, the expansion of its scope comes to an end and holds no namespace twice;
it holds those from which a linked one is reached by parent links.  What is counted and listed for
the node is counted and listed among the projects in these namespaces, each of which is there
once. -/
theorem restricted_shows_just (s : Store) (now : Instant) (nodeId : Int) :
    (∃ n ≤ (s.namespacesOf nodeId).length + s.namespaces.rows.length,
      (∀ m ≥ n, s.expand nodeId m = s.expand nodeId n) ∧ (s.expand nodeId n).Nodup ∧
        ∀ id, id ∈ s.expand nodeId n ↔ s.InScope nodeId id) ∧
    ∃ ids : List Int, ids.Pairwise (· < ·) ∧
      (∀ id, id ∈ ids ↔ ∃ p, s.projects.get? id = some p ∧ s.InScope nodeId p.namespaceId) ∧
      s.ShowsJust now nodeId ids := by
  obtain ⟨n, hn, hend, hmem⟩ := @expand_end s nodeId
  exact ⟨⟨n, hn, hend, expand_nodup n, hmem⟩, _, visibleProjects_ascending _,
    fun _ => mem_visibleProjects, showsJust now⟩

/-- A namespace can be made that is its own parent. -/
example : ((Call.createNamespace "loop" (some 1)).run .epoch .empty).2.parent? 1 = some 1 := by
  decide

end Store

end GeoReplication
