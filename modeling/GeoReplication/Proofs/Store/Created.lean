import GeoReplication.Proofs.Store.Nodes
import GeoReplication.Proofs.Store.Outcomes

/-!
# Proofs/Store/Created — new rows and their numbers

An operation that creates a row puts it under the next number of its table and answers with that
number, or changes nothing; no other operation moves the numbers on (`Call.run_creates`,
`Call.last_run`).  So the numbers that a table has handed out, the latest first, are

    last, last - 1, …, 2, 1

whatever was removed or refused in between (`Store.Past.numbers_eq`).
-/

namespace GeoReplication

open GeoReplication.Time

/-! ## What is created -/

/-- The row of a new project. -/
def NewProject.row (now : Instant) (p : NewProject) : ProjectRow where
  namespaceId := p.namespaceId
  name := p.name
  diskPath := p.diskPath
  storage := p.repositoryStorage
  wikiEnabled := p.wikiEnabled
  repositoryUpdatedAt := p.lastRepositoryUpdatedAt.map Instant.stored
  wikiUpdatedAt := none
  sizeBytes := none
  createdAt := now.stored

namespace Store

open GeoReplication.Action

variable {s s' : Store} {now : Instant}

/-- The parent of a new namespace exists, or is the namespace itself. -/
theorem created_namespace {name : String} {parentId : Option Int} {x : Namespace}
    (h : (createNamespace now name parentId).run s = (.ok x, s')) :
    (∀ parent, parentId = some parent →
      parent = s.namespaces.next ∨ s.namespaces.contains parent = true) ∧
    x.id = s.namespaces.next ∧
    s' = { s with namespaces := s.namespaces.insert ⟨name, parentId, now.stored⟩ } := by
  have hinsert := run_statement_ok h
  dsimp only at hinsert
  split at hinsert
  · cases hinsert
  · next hparent =>
    cases hinsert
    refine ⟨fun parent hp => ?_, rfl, rfl⟩
    simpa [hp, or_iff_not_imp_left] using hparent

/-- The namespace of a new project exists, and its disk path is not taken. -/
theorem created_project {p : NewProject} {x : Project}
    (h : (createProject now p).run s = (.ok x, s')) :
    s.namespaces.contains p.namespaceId = true ∧
    (∀ id row, s.projects.get? id = some row → row.diskPath ≠ p.diskPath) ∧
    x.id = s.projects.next ∧ s' = { s with projects := s.projects.insert (p.row now) } := by
  obtain ⟨id, s₁, hinsert, hread⟩ := run_bind_ok h
  have hrow := run_statement_ok hinsert
  dsimp only at hrow
  split at hrow
  · cases hrow
  · next hpath =>
    split at hrow
    · cases hrow
    · next hnamespace =>
      cases hrow
      simp only [run_read, project?, Numbered.get?_insert, if_true, Option.map_some] at hread
      cases hread
      refine ⟨by simpa using hnamespace, fun id row hrow hsame => hpath ?_, rfl, rfl⟩
      have hmem := Numbered.get?_eq_some_iff.mp hrow
      exact List.any_eq_true.mpr ⟨(id, row), hmem, beq_iff_eq.mpr hsame⟩

/-- The object id of a new large object is not taken. -/
theorem created_lfsObject {oid : String} {size : Int} {x : LfsObject}
    (h : (createLfsObject now oid size).run s = (.ok x, s')) :
    (∀ id row, s.lfsObjects.get? id = some row → row.oid ≠ oid) ∧
    x.id = s.lfsObjects.next ∧
    s' = { s with lfsObjects := s.lfsObjects.insert ⟨oid, size, now.stored⟩ } := by
  have hinsert := run_statement_ok h
  dsimp only at hinsert
  split at hinsert
  · cases hinsert
  · next hoid =>
    cases hinsert
    refine ⟨fun id row hrow hsame => hoid ?_, rfl, rfl⟩
    have hmem := Numbered.get?_eq_some_iff.mp hrow
    exact List.any_eq_true.mpr ⟨(id, row), hmem, beq_iff_eq.mpr hsame⟩

/-- A new node is answered under the next number. -/
theorem created_node {n : NewNode} {x : Node} (h : (createNode now n).run s = (.ok x, s')) :
    x.id = s.nodes.next := by
  obtain ⟨-, hnode⟩ := adds_of_createNode h
  obtain ⟨row, -, hholds⟩ := readNode_eq_some_iff.mp hnode
  exact hholds.id

end Store

namespace Call

/-- **A new namespace**: nothing is changed, or it is there, and its parent is. -/
theorem settles_createNamespace (now : Instant) (name : String) (parentId : Option Int)
    (s : Store) :
    Settles (fun s' => (∀ parent, parentId = some parent →
        parent = s.namespaces.next ∨ s.namespaces.contains parent = true) ∧
      s' = { s with namespaces := s.namespaces.insert ⟨name, parentId, now.stored⟩ }) s
      ((createNamespace name parentId).run now s) :=
  settles_of_atomic (Action.atomic_statement _) fun _ _ hrun =>
    (Store.created_namespace hrun).imp_right And.right

/-- **A new project**: nothing is changed, or it is there, and its namespace is. -/
theorem settles_createProject (now : Instant) (p : NewProject) (s : Store) :
    Settles (fun s' => s.namespaces.contains p.namespaceId = true ∧
      (∀ id row, s.projects.get? id = some row → row.diskPath ≠ p.diskPath) ∧
      s' = { s with projects := s.projects.insert (p.row now) }) s
      ((createProject p).run now s) :=
  settles_of_atomic (Store.atomic_createProject now p) fun _ _ hrun =>
    (Store.created_project hrun).imp_right (And.imp_right And.right)

/-- **A new large object**: nothing is changed, or it is there. -/
theorem settles_createLfsObject (now : Instant) (oid : String) (size : Int) (s : Store) :
    Settles (fun s' => (∀ id row, s.lfsObjects.get? id = some row → row.oid ≠ oid) ∧
      s' = { s with lfsObjects := s.lfsObjects.insert ⟨oid, size, now.stored⟩ }) s
      ((createLfsObject oid size).run now s) :=
  settles_of_atomic (Action.atomic_statement _) fun _ _ hrun =>
    (Store.created_lfsObject hrun).imp_right And.right

/-- The table in which an operation creates a row. -/
def creates : Call → Option Series
  | createNamespace _ _ => some .namespaces
  | createProject _ => some .projects
  | createUpload _ => some .uploads
  | createLfsObject _ _ => some .lfsObjects
  | createNode _ => some .nodes
  | appendEvent _ => some .events
  | _ => none

/-- The number that the answer of an operation hands out, with its table. -/
def issued : (c : Call) → c.Reply → Option (Series × Int)
  | createNamespace _ _, x => some (.namespaces, x.id)
  | createProject _, x => some (.projects, x.id)
  | createUpload _, x => some (.uploads, x.id)
  | createLfsObject _ _, x => some (.lfsObjects, x.id)
  | createNode _, x => some (.nodes, x.id)
  | appendEvent _, x => some (.events, x.id)
  | _, _ => none

variable {c : Call} {t : Series} {now : Instant} {s : Store}

theorem creates_of_issued {reply : c.Reply} {id : Int} (h : c.issued reply = some (t, id)) :
    c.creates = some t := by
  cases c <;> cases h <;> rfl

/-- **An operation that creates a row** fails, or the row has the next number of its table and the
answer says so. -/
theorem run_creates (hc : c.creates = some t) (now : Instant) (s : Store) :
    (∃ f, c.run now s = (.error f, s)) ∨
      ∃ reply row, (c.run now s).1 = .ok reply ∧ c.issued reply = some (t, (s.series t).next) ∧
        (c.run now s).2.series t = (s.series t).insert row := by
  rcases hreply : (c.run now s).1 with f | reply
  · exact .inl ⟨f, Prod.ext hreply (run_error hreply)⟩
  right
  cases c with
  | createNamespace name parentId =>
    cases hc
    obtain ⟨-, hid, hstore⟩ := Store.created_namespace (run_of_lift_ok hreply)
    exact ⟨reply, _, rfl, congrArg (fun id => some (Series.namespaces, id)) hid,
      congrArg Store.namespaces hstore⟩
  | createProject p =>
    cases hc
    obtain ⟨-, -, hid, hstore⟩ := Store.created_project (run_of_lift_ok hreply)
    exact ⟨reply, _, rfl, congrArg (fun id => some (Series.projects, id)) hid,
      congrArg Store.projects hstore⟩
  | createUpload u =>
    cases hc
    cases hreply
    exact ⟨_, _, rfl, rfl, rfl⟩
  | createLfsObject oid size =>
    cases hc
    obtain ⟨-, hid, hstore⟩ := Store.created_lfsObject (run_of_lift_ok hreply)
    exact ⟨reply, _, rfl, congrArg (fun id => some (Series.lfsObjects, id)) hid,
      congrArg Store.lfsObjects hstore⟩
  | createNode n =>
    cases hc
    have hrun := run_of_lift_ok hreply
    exact ⟨reply, _, rfl, congrArg (fun id => some (Series.nodes, id)) (Store.created_node hrun),
      congrArg Store.nodes (Store.adds_of_createNode hrun).1.store⟩
  | appendEvent e =>
    cases hc
    cases hreply
    exact ⟨_, _, rfl, rfl, rfl⟩
  | _ => cases hc

/-- The row that an operation removes, if it is there. -/
def removed? : Call → Option (Series × Int)
  | deleteProject id => some (.projects, id)
  | deleteNode id => some (.nodes, id)
  | _ => none

/-- **What becomes of a numbered table**: nothing, or one row is put under the next number, removed
or changed. -/
theorem series_after (c : Call) (now : Instant) (s : Store) (t : Series) :
    (c.run now s).2.series t = s.series t ∨
    (∃ row, c.creates = some t ∧ (c.run now s).2.series t = (s.series t).insert row) ∨
    (∃ id, c.removed? = some (t, id) ∧ (c.run now s).2.series t = (s.series t).erase id) ∨
    ∃ id f, (c.run now s).2.series t = (s.series t).modify id f := by
  by_cases hcreates : c.creates = some t
  · rcases run_creates hcreates now s with ⟨f, hrun⟩ | ⟨-, row, -, -, hseries⟩
    · exact .inl (by rw [hrun])
    · exact .inr (.inl ⟨row, hcreates, hseries⟩)
  by_cases hplace : t.place ∈ c.writes
  · cases t with
    | projects =>
      cases c with
      | touchProject id part time =>
        rcases Store.run_touchProject now id part time s with hrun | hrun <;> rw [hrun]
        · exact .inl rfl
        · exact .inr (.inr (.inr ⟨id, _, rfl⟩))
      | expireRepositoryCache id => exact .inr (.inr (.inr ⟨id, _, rfl⟩))
      | deleteProject id => exact .inr (.inr (.inl ⟨id, rfl, rfl⟩))
      | createProject p => exact absurd rfl hcreates
      | _ => exact absurd hplace (by simp [writes, Series.place])
    | nodes =>
      cases c with
      | updateNode n =>
        rcases settles_updateNode now n s with ⟨f, hrun⟩ | ⟨-, -, old, h⟩
        · exact .inl (by rw [hrun])
        · exact .inr (.inr (.inr ⟨n.id, _, congrArg Store.nodes h.store⟩))
      | deleteNode id => exact .inr (.inr (.inl ⟨id, rfl, rfl⟩))
      | createNode n => exact absurd rfl hcreates
      | _ => exact absurd hplace (by simp [writes, Series.place])
    | _ =>
      -- these only grow
      cases c <;> first
        | exact absurd rfl hcreates
        | exact absurd hplace (by simp [writes, Series.place])
  · exact .inl ((c.sameBut_run now s).series hplace)

/-- Only operations that create a row move the numbers on. -/
theorem last_run (hc : c.creates ≠ some t) :
    ((c.run now s).2.series t).last = (s.series t).last := by
  rcases c.series_after now s t with hsame | ⟨row, hcreates, -⟩ | ⟨id, -, hgone⟩ | ⟨id, f, hchanged⟩
  · rw [hsame]
  · exact absurd hcreates hc
  · rw [hgone]
    rfl
  · rw [hchanged]
    rfl

end Call

/-! ## The numbers of a past -/

namespace Deed

/-- The number that was handed out, with its table. -/
def issued (d : Deed) : Option (Series × Int) :=
  match (d.call.run d.now d.before).1 with
  | .ok reply => d.call.issued reply
  | .error _ => none

/-- The numbers that a table has handed out, the latest first. -/
def numbers (t : Series) (deeds : List Deed) : List Int :=
  deeds.filterMap fun d => (d.issued.filter fun i => i.1 = t).map Prod.snd

theorem numbers_cons_of_issued {t : Series} {d : Deed} {id : Int} (h : d.issued = some (t, id))
    (deeds : List Deed) : numbers t (d :: deeds) = id :: numbers t deeds :=
  List.filterMap_cons_some (by simp [h])

theorem numbers_cons_of_not_issued {t : Series} {d : Deed} (h : ∀ id, d.issued ≠ some (t, id))
    (deeds : List Deed) : numbers t (d :: deeds) = numbers t deeds := by
  refine List.filterMap_cons_none (Option.map_eq_none_iff.mpr (Option.filter_eq_none_iff.mpr ?_))
  rintro ⟨t', id⟩ hd
  rw [decide_eq_true_iff]
  rintro rfl
  exact h id hd

end Deed

namespace Store

variable {deeds : List Deed} {s : Store} {t : Series}

/-- **Numbers are handed out once**: the latest is the last, and before it every smaller one was. -/
theorem Past.numbers_eq (h : Past deeds s) (t : Series) :
    Deed.numbers t deeds = ((List.range' 1 (s.series t).last).map Int.ofNat).reverse := by
  induction h with
  | empty => cases t <;> rfl
  | @call deeds s now c _ ih =>
    by_cases hc : c.creates = some t
    · rcases Call.run_creates hc now s with
        ⟨f, hrun⟩ | ⟨reply, row, hreply, hissued, hseries⟩
      · rw [Deed.numbers_cons_of_not_issued (fun id => by simp [Deed.issued, hrun]), ih, hrun]
      · have hd : Deed.issued ⟨now, c, s⟩ = some (t, (s.series t).next) := by
          simp only [Deed.issued, hreply, hissued]
        have hlast : ((c.run now s).2.series t).last = (s.series t).last + 1 := by
          rw [hseries]
          rfl
        have hnext : Int.ofNat (1 + (s.series t).last) = (s.series t).next := by
          rw [Numbered.next, Int.ofNat_eq_natCast]
          omega
        rw [Deed.numbers_cons_of_issued hd, ih, hlast, List.range'_1_concat, List.map_append,
          List.reverse_append, List.map_singleton, List.reverse_singleton, hnext,
          List.singleton_append]
    · have hnone (id : Int) : Deed.issued ⟨now, c, s⟩ ≠ some (t, id) := by
        rw [Deed.issued]
        split
        · exact fun h => hc (Call.creates_of_issued h)
        · exact fun h => by cases h
      rw [Deed.numbers_cons_of_not_issued hnone, ih, Call.last_run hc]

/-- The numbers handed out grow. -/
theorem Past.numbers_pairwise (h : Past deeds s) (t : Series) :
    (Deed.numbers t deeds).Pairwise (· > ·) := by
  rw [h.numbers_eq, List.pairwise_reverse, List.pairwise_map]
  exact (List.pairwise_lt_range' 1).imp fun hlt => Int.ofNat_lt.mpr hlt

theorem Past.mem_numbers (h : Past deeds s) {id : Int} :
    id ∈ Deed.numbers t deeds ↔ 0 < id ∧ id ≤ (s.series t).last := by
  rw [h.numbers_eq, List.mem_reverse, List.mem_map]
  simp only [List.mem_range'_1]
  constructor
  · rintro ⟨n, hn, rfl⟩
    simp only [Int.ofNat_eq_natCast]
    omega
  · rintro hid
    exact ⟨id.toNat, by omega, Int.toNat_of_nonneg (by omega)⟩

/-- A row that is there got its number in the past. -/
theorem Past.mem_numbers_of_contains (h : Past deeds s) {id : Int}
    (hthere : (s.series t).contains id = true) : id ∈ Deed.numbers t deeds := by
  obtain ⟨row, hrow⟩ := Numbered.contains_iff_exists.mp hthere
  exact h.mem_numbers.mpr ((s.series t).bounded (id, row) (Numbered.get?_eq_some_iff.mp hrow))

/-- The next number was not handed out yet. -/
theorem Past.next_notMem_numbers (h : Past deeds s) :
    (s.series t).next ∉ Deed.numbers t deeds := fun hmem => by
  have hle := (h.mem_numbers.mp hmem).2
  rw [Numbered.next] at hle
  omega

end Store

end GeoReplication
