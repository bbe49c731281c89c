import GeoReplication.Proofs.Store.Places

/-!
# Proofs/Store/Atomic — an operation that fails has done nothing

Statements and transactions undo themselves.  A sequence of actions does so too if everything before
the write only looks, or if everything after it is sure to answer; every operation of the store is
built in one of these ways (`Call.unchanged_of_error`).
-/

namespace GeoReplication

open GeoReplication.Time

namespace Action

variable {α β : Type} {a : Action α} {next : α → Action β}

/-- The action only looks. -/
def Looks (a : Action α) : Prop := ∀ s, (a.run s).2 = s

/-- The action leaves the store as it was if it fails. -/
def Atomic (a : Action α) : Prop := ∀ s s' e, a.run s = (.error e, s') → s' = s

theorem looks_pure (x : α) : (pure x : Action α).Looks := fun _ => rfl

theorem looks_fail (e : Error) : (fail e : Action α).Looks := fun _ => rfl

theorem looks_read (look : Store → Except Error α) : (read look).Looks := fun _ => rfl

theorem Looks.atomic (h : a.Looks) : a.Atomic := fun s s' e hrun => by
  have hsame := h s
  rwa [hrun] at hsame

theorem atomic_statement (g : Store → Except Error (α × Store)) : (statement g).Atomic := by
  intro s s' e hrun
  rw [run_statement] at hrun
  split at hrun <;> cases hrun
  rfl

theorem atomic_transaction (a : Action α) : (transaction a).Atomic := by
  intro s s' e hrun
  rw [run_transaction] at hrun
  split at hrun <;> cases hrun
  rfl

/-- A look comes first. -/
theorem Looks.bind (h : a.Looks) (hnext : ∀ x, (next x).Atomic) : (a >>= next).Atomic := by
  intro s s' e hrun
  have hsame := h s
  rw [run_bind] at hrun
  rcases ha : a.run s with ⟨e' | x, s₁⟩ <;> rw [ha] at hrun hsame
  · cases hrun
    exact hsame
  · exact (hnext x s₁ s' e hrun).trans hsame

/-- What comes last always answers. -/
theorem Atomic.bind (h : a.Atomic)
    (hnext : ∀ s x s', a.run s = (.ok x, s') → ∃ y, ((next x).run s').1 = .ok y) :
    (a >>= next).Atomic := by
  intro s s' e hrun
  rw [run_bind] at hrun
  rcases ha : a.run s with ⟨e' | x, s₁⟩ <;> rw [ha] at hrun
  · cases hrun
    exact h s s' e ha
  · obtain ⟨y, hy⟩ := hnext s x s₁ ha
    rw [show (next x).run s₁ = (.error e, s') from hrun] at hy
    cases hy

end Action

/-! ## Operations of more than one step -/

namespace Store

open GeoReplication.Action

theorem atomic_createNode (now : Instant) (n : NewNode) : (createNode now n).Atomic := by
  have hwrite : (insertNode now n).Atomic := atomic_transaction _
  rw [createNode]
  split
  · refine (looks_read _).bind fun primary => ?_
    split
    · exact (looks_fail _).bind fun _ => hwrite
    · exact hwrite
  · exact hwrite

theorem atomic_updateNode (now : Instant) (n : Node) : (updateNode now n).Atomic := by
  have hwrite : (replaceNode now n).Atomic := atomic_transaction _
  rw [updateNode]
  split
  · refine (looks_read _).bind fun primary => ?_
    split
    · split
      · exact (looks_fail _).bind fun _ => hwrite
      · exact hwrite
    · exact hwrite
  · exact hwrite

/-- A project that was inserted can be read. -/
theorem atomic_createProject (now : Instant) (p : NewProject) : (createProject now p).Atomic := by
  refine (atomic_statement _).bind fun s id s' hrun => ?_
  have hinsert := run_statement_ok hrun
  dsimp only at hinsert
  split at hinsert
  · cases hinsert
  · split at hinsert <;> cases hinsert
    simp only [run_read, project?, Numbered.get?_insert, if_true, Option.map_some]
    exact ⟨_, rfl⟩

/-- A cursor that was written can be read. -/
theorem atomic_advanceCursor (nodeId eventId : Int) : (advanceCursor nodeId eventId).Atomic := by
  refine (atomic_statement _).bind fun s _ s' hrun => ?_
  have hput := run_statement_ok hrun
  dsimp only at hput
  split at hput <;> cases hput
  simp only [run_read, Table.get?_upsert, if_true]
  exact ⟨_, rfl⟩

end Store

namespace Call

open GeoReplication.Action

variable {α : Type} {s : Store} {f : Failure}

theorem unchanged_lift {a : Action α} (ha : a.Atomic) (h : (lift a s).1 = .error f) :
    (lift a s).2 = s := by
  rw [snd_lift]
  rcases hrun : a.run s with ⟨e | x, s'⟩
  · exact ha s s' e hrun
  · rw [lift, hrun] at h
    cases h

theorem unchanged_withLeaseEnd {now : Instant} {ttlMillis : Nat} {a : String → Action α}
    (ha : ∀ expiresAt, (a expiresAt).Atomic) (h : (withLeaseEnd now ttlMillis a s).1 = .error f) :
    (withLeaseEnd now ttlMillis a s).2 = s := by
  rw [withLeaseEnd] at h ⊢
  split at h
  · exact unchanged_lift (ha _) h
  · rfl

/-- An operation that fails leaves the store as it was. -/
theorem run_error {c : Call} {now : Instant} (h : (c.run now s).1 = .error f) :
    (c.run now s).2 = s := by
  cases c with
  | createNode n => exact unchanged_lift (Store.atomic_createNode now n) h
  | updateNode n => exact unchanged_lift (Store.atomic_updateNode now n) h
  | createProject p => exact unchanged_lift (Store.atomic_createProject now p) h
  | advanceCursor nodeId eventId =>
    exact unchanged_lift (Store.atomic_advanceCursor nodeId eventId) h
  | findNodeByUrl url =>
    exact unchanged_lift ((looks_read _).bind fun _ => (looks_pure _).atomic) h
  | recordSyncSuccess nodeId projectId part started =>
    exact unchanged_lift (atomic_transaction _) h
  | recordSyncFailure nodeId projectId part reason =>
    exact unchanged_lift (atomic_transaction _) h
  | requestResync nodeId projectId part => exact unchanged_lift (atomic_transaction _) h
  | obtainLease key holder ttl => exact unchanged_withLeaseEnd (fun _ => atomic_statement _) h
  | renewLease key holder ttl => exact unchanged_withLeaseEnd (fun _ => atomic_statement _) h
  | prepare => exact unchanged_lift (looks_pure _).atomic h
  | ping => exact unchanged_lift (looks_pure _).atomic h
  | _ => first
    | exact unchanged_lift (looks_read _).atomic h
    | exact unchanged_lift (atomic_statement _) h

/-- **Every operation is atomic.**  In any store, whatever its rows hold, an operation that fails
leaves all tables as they were, and the numbers they give to their next rows. -/
theorem unchanged_of_error (c : Call) (now : Instant) (s : Store) (f : Failure)
    (h : (c.run now s).1 = .error f) :
    (∀ p, (c.run now s).2.table p = s.table p) ∧
      ∀ t, ((c.run now s).2.series t).next = (s.series t).next := by
  rw [run_error h]
  exact ⟨fun _ => rfl, fun _ => rfl⟩

/-- A failure is recorded for one half of a row and undone, as the other half cannot be read; the
primary cannot be changed, as the port of its row is none; a node is created and undone, as its
second namespace is missing. -/
theorem unchanged_of_torn_row : ∃ s : Store,
    ((recordSyncFailure 1 1 .repository "refused").run .epoch s).1 =
      .error (.error (.database (.unknownWord 8 "torn"))) ∧
    (∀ p, ((recordSyncFailure 1 1 .repository "refused").run .epoch s).2.table p = s.table p) ∧
    ((updateNode ⟨1, ⟨"http", "primary", 80, ""⟩, .primary, true, [], 1, 1, .epoch, .epoch⟩).run
      .epoch s).1 = .error (.error (.database (.outOfRange 3 70000))) ∧
    (∀ p, ((updateNode ⟨1, ⟨"http", "primary", 80, ""⟩, .primary, true, [], 1, 1, .epoch,
      .epoch⟩).run .epoch s).2.table p = s.table p) ∧
    ((createNode ⟨⟨"http", "secondary", 80, ""⟩, .secondary, true, [1, 2], 1, 1⟩).run .epoch s).1 =
      .error (.error .danglingReference) ∧
    ∀ t, (((createNode ⟨⟨"http", "secondary", 80, ""⟩, .secondary, true, [1, 2], 1, 1⟩).run
      .epoch s).2.series t).next = (s.series t).next := by
  refine ⟨{ Store.empty with
    namespaces := Store.Numbered.empty.insert ⟨"group", none, ""⟩
    nodes := Store.Numbered.empty.insert ⟨⟨"http", "primary", 70000, ""⟩, true, true, 1, 1, "", ""⟩
    registries := Store.Table.empty.insert (1, 1)
      { RegistryRow.fresh "" with wiki := { PartRow.fresh with state := "torn" } } },
    rfl, ?_, rfl, ?_, rfl, ?_⟩
  · exact (unchanged_of_error _ .epoch _ _ rfl).1
  · exact (unchanged_of_error _ .epoch _ _ rfl).1
  · exact (unchanged_of_error _ .epoch _ _ rfl).2

end Call

end GeoReplication
