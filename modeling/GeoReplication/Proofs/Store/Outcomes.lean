import GeoReplication.Proofs.Store.Reached

/-!
# Proofs/Store/Outcomes — rows agree with what was recorded

A `Past` of a store lists the operations that led to it from the empty one, the latest first.  Each
half of each row agrees with it (`Store.Past.agrees`): what the half says of the last attempt fits
together, and its retry count is the number of failures that were recorded since the row appeared or
the part was last copied.

The count never leaves its range because a failure is recorded and read back in one transaction: if
the new count cannot be read, the old row stays.
-/

namespace GeoReplication

open GeoReplication.Time

/-! ## Halves that agree with a number of failures -/

namespace PartRow

/-- The columns fit together, and `failures` attempts have failed since the last success. -/
structure Agrees (r : PartRow) (failures : Nat) : Prop where
  word : ∃ state : SyncState, r.state = state.word
  attempted : r.state = SyncState.neverSynced.word ↔ r.syncedAt = none
  untouched : r.syncedAt = none → r.successfulAt = none ∧ r.failure = none ∧ r.retryCount = 0
  synced : r.state = SyncState.synced.word →
    r.successfulAt.isSome = true ∧ r.retryCount = 0 ∧ r.failure = none
  failed : r.state = SyncState.syncFailed.word → r.failure.isSome = true ∧ 1 ≤ r.retryCount
  counted : r.retryCount = failures
  inRange : 0 ≤ r.retryCount ∧ r.retryCount ≤ 2147483647

theorem agrees_fresh : fresh.Agrees 0 where
  word := ⟨.neverSynced, rfl⟩
  attempted := by simp [fresh]
  untouched _ := ⟨rfl, rfl, rfl⟩
  synced h := absurd h (by decide)
  failed h := absurd h (by decide)
  counted := rfl
  inRange := by decide

theorem agrees_succeed (time started : String) (r : PartRow) :
    (r.succeed time started).Agrees 0 where
  word := ⟨.synced, rfl⟩
  attempted := ⟨fun h => absurd h (by simp [succeed, SyncState.word]), fun h => by cases h⟩
  untouched h := by cases h
  synced _ := ⟨rfl, rfl, rfl⟩
  failed h := absurd h (by simp [succeed, SyncState.word])
  counted := rfl
  inRange := by simp [succeed]

variable {r : PartRow} {failures : Nat}

theorem Agrees.fail (h : r.Agrees failures) (time reason : String)
    (hrange : r.retryCount + 1 ≤ 2147483647) : (r.fail time reason).Agrees (failures + 1) where
  word := ⟨.syncFailed, rfl⟩
  attempted := ⟨fun h => absurd h (by simp [PartRow.fail, SyncState.word]), fun h => by cases h⟩
  untouched h := by cases h
  synced h := absurd h (by simp [PartRow.fail, SyncState.word])
  failed _ := ⟨rfl, by have := h.inRange.1; simp only [PartRow.fail]; omega⟩
  counted := by have := h.counted; simp only [PartRow.fail]; omega
  inRange := ⟨by have := h.inRange.1; simp only [PartRow.fail]; omega, hrange⟩

theorem Agrees.requestResync (h : r.Agrees failures) (time : String) :
    (r.requestResync time).Agrees failures :=
  ⟨h.word, h.attempted, h.untouched, h.synced, h.failed, h.counted, h.inRange⟩

/-- A count that could be read is in range. -/
theorem retryCount_le_of_record {now : Instant} {column : Nat} {record : SyncRecord}
    (h : r.record now column = .ok record) : r.retryCount ≤ 2147483647 := by
  rw [PartRow.record] at h
  obtain ⟨state, -, h⟩ := bind_eq_ok_iff.mp h
  obtain ⟨retryCount, hcount, -⟩ := bind_eq_ok_iff.mp h
  exact (readNumber_eq_ok_iff.mp hcount).1.2

end PartRow

/-- A row that could be read has halves that could be read. -/
theorem RegistryRow.part_record_of_record {now : Instant} {nodeId projectId : Int}
    {row : RegistryRow} {registry : Registry} (h : row.record now nodeId projectId = .ok registry)
    (part : Part) :
    ∃ column, (row.part part).record now column = .ok (registry.record part) := by
  rw [RegistryRow.record] at h
  cases hrepository : row.repository.record now 2 with
  | error e =>
    rw [hrepository] at h
    cases h
  | ok repository =>
    cases hwiki : row.wiki.record now 8 with
    | error e =>
      rw [hrepository, hwiki] at h
      cases h
    | ok wiki =>
      rw [hrepository, hwiki] at h
      cases h
      cases part
      · exact ⟨2, hrepository⟩
      · exact ⟨8, hwiki⟩

/-! ## Failures are read back -/

namespace Store

open GeoReplication.Action

variable {now : Instant} {nodeId projectId : Int} {part : Part} {reason : String} {s s' : Store}

theorem record_of_rereadRegistry {registry : Registry}
    (h : (rereadRegistry now nodeId projectId).run s = (.ok registry, s')) :
    s' = s ∧ ∃ row, s.registries.get? (nodeId, projectId) = some row ∧
      row.record now nodeId projectId = .ok registry := by
  rw [rereadRegistry, run_read, readRegistry] at h
  cases hrow : s.registries.get? (nodeId, projectId) with
  | none =>
    rw [hrow] at h
    cases h
  | some row =>
    rw [hrow] at h
    dsimp only at h
    cases hrecord : row.record now nodeId projectId with
    | error e =>
      rw [hrecord] at h
      cases h
    | ok registry' =>
      rw [hrecord] at h
      cases h
      exact ⟨rfl, row, rfl, hrecord⟩

/-- A failure that is recorded leaves a row that can be read. -/
theorem record_of_recordSyncFailure
    (h : ((Call.recordSyncFailure nodeId projectId part reason).run now s).1.isOk = true) :
    ∃ row registry, Table.get?
      ((Call.recordSyncFailure nodeId projectId part reason).run now s).2.registries
        (nodeId, projectId) = some row ∧ row.record now nodeId projectId = .ok registry := by
  rw [Call.run, Call.lift] at h ⊢
  rcases hrun : (recordSyncFailure now nodeId projectId part reason).run s with ⟨e | registry, s'⟩
  · rw [hrun] at h
    cases h
  · obtain ⟨-, s₁, -, h₁⟩ := run_bind_ok (run_transaction_ok hrun)
    obtain ⟨-, s₂, -, h₂⟩ := run_bind_ok h₁
    obtain ⟨rfl, row, hrow⟩ := record_of_rereadRegistry h₂
    exact ⟨row, registry, hrow⟩

end Store

/-! ## What was done -/

/-- An operation that was carried out: when, which, and on which store. -/
structure Deed where
  now : Instant
  call : Call
  before : Store

namespace Deed

/-- The store after the operation. -/
def after (d : Deed) : Store := (d.call.run d.now d.before).2

/-- The operation did not fail. -/
def answered (d : Deed) : Bool := (d.call.run d.now d.before).1.isOk

variable (key : Int × Int) (part : Part)

/-- A failed attempt was recorded. -/
def failed (d : Deed) : Bool :=
  match d.call with
  | .recordSyncFailure nodeId projectId part' _ =>
    decide ((nodeId, projectId) = key ∧ part' = part) && d.answered
  | _ => false

/-- A successful attempt was recorded. -/
def succeeded (d : Deed) : Bool :=
  match d.call with
  | .recordSyncSuccess nodeId projectId part' _ =>
    decide ((nodeId, projectId) = key ∧ part' = part) && d.answered
  | _ => false

/-- The deeds since the row was created, with the one that created it. -/
def sinceCreation : List Deed → List Deed
  | [] => []
  | d :: earlier =>
    if d.before.registries.contains key then d :: sinceCreation earlier else [d]

/-- How many failures were recorded since the row was created or the part was last copied. -/
def failures (deeds : List Deed) : Nat :=
  ((sinceCreation key deeds).takeWhile fun d => !d.succeeded key part).countP (·.failed key part)

end Deed

namespace Store

/-- The operations that led to a store from the empty one, the latest first. -/
inductive Past : List Deed → Store → Prop
  | empty : Past [] .empty
  | call {deeds : List Deed} {s : Store} (now : Instant) (c : Call) :
    Past deeds s → Past (⟨now, c, s⟩ :: deeds) (c.run now s).2

/-- Every store has a past. -/
theorem Reached.past {s : Store} (h : s.Reached) : ∃ deeds, Past deeds s := by
  induction h with
  | empty => exact ⟨[], .empty⟩
  | call now c _ ih =>
    obtain ⟨deeds, hpast⟩ := ih
    exact ⟨_, hpast.call now c⟩

theorem Past.reached {s : Store} {deeds : List Deed} (h : Past deeds s) : s.Reached := by
  induction h with
  | empty => exact .empty
  | call now c _ ih => exact ih.call now c

end Store

namespace Deed

variable {key : Int × Int} {part : Part} {d : Deed}

/-- What was counted before, if the row was there. -/
def failuresBefore (key : Int × Int) (part : Part) (d : Deed) (earlier : List Deed) : Nat :=
  if d.before.registries.contains key then failures key part earlier else 0

theorem failures_cons (key : Int × Int) (part : Part) (d : Deed) (earlier : List Deed) :
    failures key part (d :: earlier) =
      if d.succeeded key part then 0
      else d.failuresBefore key part earlier + (d.failed key part).toNat := by
  rw [failures, sinceCreation, failuresBefore]
  split <;> cases hs : d.succeeded key part <;> cases hf : d.failed key part <;>
    simp [hs, hf, failures]

/-- Nothing is recorded without a half of a row being changed. -/
theorem not_recorded
    (h : ∀ f, d.call.rewrite? d.now = some (key, part, f) → d.answered = false) :
    d.succeeded key part = false ∧ d.failed key part = false := by
  obtain ⟨now, c, s⟩ := d
  constructor
  · cases c with
    | recordSyncSuccess nodeId projectId part' started =>
      rw [succeeded, Bool.and_eq_false_imp]
      intro hkey
      obtain ⟨rfl, rfl⟩ := of_decide_eq_true hkey
      exact h _ rfl
    | _ => rfl
  · cases c with
    | recordSyncFailure nodeId projectId part' reason =>
      rw [failed, Bool.and_eq_false_imp]
      intro hkey
      obtain ⟨rfl, rfl⟩ := of_decide_eq_true hkey
      exact h _ rfl
    | _ => rfl

end Deed

namespace Store

variable {s : Store} {deeds : List Deed} {key : Int × Int} {row : RegistryRow} {part : Part}

/-- **A change of a half keeps it in agreement**: a success starts the count again, a failure counts
one more, and a request leaves the count alone. -/
theorem agrees_rewrite {now : Instant} {c : Call} {f : PartRow → PartRow} {r : PartRow}
    (hc : c.rewrite? now = some (key, part, f)) (hok : (c.run now s).1.isOk = true)
    (hrow : (c.run now s).2.registries.get? key = some row) (hhalf : row.part part = f r)
    (hr : r.Agrees (Deed.failuresBefore key part ⟨now, c, s⟩ deeds)) :
    (f r).Agrees (Deed.failures key part (⟨now, c, s⟩ :: deeds)) := by
  rw [Deed.failures_cons]
  cases c with
  | recordSyncSuccess nodeId projectId part' started =>
    cases hc
    have hs : Deed.succeeded (nodeId, projectId) part
        ⟨now, .recordSyncSuccess nodeId projectId part started, s⟩ = true := by
      simp [Deed.succeeded, Deed.answered, hok]
    rw [if_pos hs]
    exact PartRow.agrees_succeed _ _ r
  | recordSyncFailure nodeId projectId part' reason =>
    cases hc
    have hf : Deed.failed (nodeId, projectId) part
        ⟨now, .recordSyncFailure nodeId projectId part reason, s⟩ = true := by
      simp [Deed.failed, Deed.answered, hok]
    rw [if_neg (by exact Bool.false_ne_true), hf]
    obtain ⟨row', registry, hrow', hread⟩ := record_of_recordSyncFailure hok
    cases hrow.symm.trans hrow'
    obtain ⟨column, hpart⟩ := RegistryRow.part_record_of_record hread part
    have hrange := PartRow.retryCount_le_of_record hpart
    rw [hhalf] at hrange
    exact hr.fail _ _ hrange
  | requestResync nodeId projectId part' =>
    cases hc
    exact hr.requestResync _
  | _ => cases hc

theorem Past.agrees (h : Past deeds s) (hrow : s.registries.get? key = some row) (part : Part) :
    (row.part part).Agrees (Deed.failures key part deeds) := by
  induction h generalizing row with
  | empty => cases hrow
  | @call deeds s now c hpast ih =>
    have hbefore : ((s.rowOrFresh now key).part part).Agrees
        (Deed.failuresBefore key part ⟨now, c, s⟩ deeds) := by
      rw [Deed.failuresBefore, rowOrFresh, Table.contains]
      cases hthere : s.registries.get? key with
      | none => cases part <;> exact PartRow.agrees_fresh
      | some old => exact ih hthere
    have hsame (hno : ∀ f, c.rewrite? now = some (key, part, f) → (c.run now s).1.isOk = false) :
        Deed.failures key part (⟨now, c, s⟩ :: deeds) =
          Deed.failuresBefore key part ⟨now, c, s⟩ deeds := by
      obtain ⟨hs, hf⟩ := Deed.not_recorded (d := ⟨now, c, s⟩) hno
      rw [Deed.failures_cons, hs, hf]
      rfl
    rcases Call.row_after hrow with ⟨hthere, hno⟩ | ⟨part', f, hc, hok, rfl⟩
    · rw [hsame (hno part)]
      rwa [rowOrFresh, hthere] at hbefore
    · by_cases hpart : part = part'
      · subst hpart
        rw [RegistryRow.part_modify]
        exact agrees_rewrite hc hok hrow (RegistryRow.part_modify _ _ _) hbefore
      · rw [RegistryRow.part_modify_of_ne hpart, hsame fun f' hc' => ?_]
        · exact hbefore
        · rw [hc] at hc'
          cases hc'
          exact absurd rfl hpart

/-! ## The last success -/

/-- When the attempt began that last copied the part, as the row has it. -/
def lastSuccess (s : Store) (key : Int × Int) (part : Part) : Option String :=
  (s.registries.get? key).bind fun row => (row.part part).successfulAt

theorem lastSuccess_rowOrFresh (s : Store) (now : Instant) (key : Int × Int) (part : Part) :
    ((s.rowOrFresh now key).part part).successfulAt = s.lastSuccess key part := by
  rw [rowOrFresh, lastSuccess]
  cases s.registries.get? key with
  | none => cases part <;> rfl
  | some row => rfl

/-- No failure changes the last success of any part. -/
theorem lastSuccess_recordSyncFailure (now : Instant) (nodeId projectId : Int) (failing : Part)
    (reason : String) (s : Store) (key : Int × Int) (part : Part) :
    ((Call.recordSyncFailure nodeId projectId failing reason).run now s).2.lastSuccess key part =
      s.lastSuccess key part := by
  rcases Call.settles_recordSyncFailure now nodeId projectId failing s reason with
    ⟨e, hrun⟩ | ⟨-, -, hw⟩
  · rw [hrun]
  · rw [lastSuccess, hw.rows]
    split
    · next hkey =>
      subst hkey
      rw [← lastSuccess_rowOrFresh s now, Option.bind_some]
      by_cases hpart : part = failing
      · subst hpart
        rw [RegistryRow.part_modify]
        rfl
      · rw [RegistryRow.part_modify_of_ne hpart]
    · rfl

/-- **Rows agree with what was recorded.**  In every store that operations lead to, both halves of
every row fit together and count the failures since the row appeared or the part was last copied,
within range; and a failure never changes a last success. -/
theorem Past.rows_agree (h : Past deeds s) :
    (∀ key row, s.registries.get? key = some row →
      ∀ part, (row.part part).Agrees (Deed.failures key part deeds)) ∧
    ∀ now nodeId projectId failing reason key part,
      ((Call.recordSyncFailure nodeId projectId failing reason).run now s).2.lastSuccess key part =
        s.lastSuccess key part :=
  ⟨fun _ _ hrow part => h.agrees hrow part, fun now nodeId projectId failing reason key part =>
    lastSuccess_recordSyncFailure now nodeId projectId failing reason s key part⟩

/-- A copy between failures of the same part, and a failure of the other. -/
theorem rows_agree_troubled : ∃ deeds s row, Past deeds s ∧
    s.registries.get? (1, 1) = some row ∧ row.repository.Agrees 2 ∧ row.wiki.Agrees 1 ∧
    ((Call.recordSyncFailure 1 1 .repository "gone").run .epoch s).2.lastSuccess (1, 1)
      .repository = some (Instant.mk 1 0).stored := by
  have hplaces := ((Past.empty.call .epoch (.createNamespace "group" none)).call .epoch
    (.createNode ⟨⟨"http", "secondary", 80, ""⟩, .secondary, true, [], 1, 1⟩)).call .epoch
    (.createProject ⟨1, "p", "group/p", "default", false, none⟩)
  have hfirst := hplaces.call .epoch (.recordSyncFailure 1 1 .repository "refused")
  have hcopied := hfirst.call .epoch (.recordSyncSuccess 1 1 .repository ⟨1, 0⟩)
  have hsecond := hcopied.call .epoch (.recordSyncFailure 1 1 .repository "refused")
  have hwiki := hsecond.call .epoch (.recordSyncFailure 1 1 .wiki "refused")
  have hthird := hwiki.call .epoch (.recordSyncFailure 1 1 .repository "refused")
  obtain ⟨hagree, hlast⟩ := hthird.rows_agree
  refine ⟨_, _, _, hthird, rfl, ?_, ?_, ?_⟩
  · exact hagree (1, 1) _ rfl .repository
  · exact hagree (1, 1) _ rfl .wiki
  · rw [hlast]
    rfl

end Store

end GeoReplication
