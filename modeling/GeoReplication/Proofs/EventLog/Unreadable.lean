import GeoReplication.Proofs.EventLog.CaughtUp
import GeoReplication.Proofs.EventLog.NoneLost
import Mathlib.Algebra.GroupWithZero.Nat

/-!
# Proofs/EventLog/Unreadable — an event that cannot be read holds up its batch

    │ e₁ e₂ │ e₃ e₄ │ e₅  ✗  …          batches of two: e₅ is never applied

A batch is read as a whole before its first event is applied.  So a run whose batch holds a row that
cannot be read fails and changes nothing, and the events in front of that row wait as it does
(`secures_heldUp`).  Runs go through whole batches of readable events only (`consumed`): how near
they come to the row depends on how long the batches are, and with batches of one length they reach
it exactly if that divides the number of events in front (`unreadable_holds_up`).
-/

namespace GeoReplication

open GeoReplication.Time

namespace Store

/-- A row that cannot be read fails the whole batch. -/
theorem readEvents_of_unreadable {now : Instant} {rows tail : List (Int × EventRow)}
    {r : Int × EventRow} {log : List NewEvent} {e : Error} (hrows : Says rows log)
    (hr : r.2.content = .error e) : readEvents now (rows ++ r :: tail) = .error e := by
  induction hrows with
  | nil =>
    rw [List.nil_append, readEvents, EventRow.record_eq, hr]
    rfl
  | @cons r' c rows log hcontent _ ih =>
    rw [List.cons_append, readEvents, EventRow.record_eq, hcontent, ih]
    rfl

end Store

namespace EventLog

open Program

variable {n : Node} {store : Store} {s : Site} {F : Site → Effect → Prop}

/-! ## Batches in front of a row that cannot be read -/

/-- A batch lies within the next `left` events. -/
def Fits (batchSize left : Nat) : Prop := max batchSize 1 ≤ left ∧ max batchSize 1 < Nat.pow 2 63

instance (batchSize left : Nat) : Decidable (Fits batchSize left) :=
  inferInstanceAs (Decidable (max batchSize 1 ≤ left ∧ max batchSize 1 < Nat.pow 2 63))

section Limited

variable {batchSize : Nat} {r : Int × EventRow} {rows rest : List (Int × EventRow)}

theorem limited_of_fits (h : Fits batchSize rows.length) :
    Store.limited (max batchSize 1) (rows ++ r :: rest) = rows.take (max batchSize 1) := by
  rw [Store.limited, if_pos h.2, List.take_append_of_le_length h.1]

theorem limited_of_not_fits (h : ¬ Fits batchSize rows.length) :
    ∃ tail, Store.limited (max batchSize 1) (rows ++ r :: rest) = rows ++ r :: tail := by
  rw [Store.limited]
  split
  · next hlimit =>
    have hlong : rows.length < max batchSize 1 := Nat.not_le.mp fun hle => h ⟨hle, hlimit⟩
    obtain ⟨k, hk⟩ := Nat.exists_eq_add_of_lt hlong
    refine ⟨rest.take k, ?_⟩
    rw [List.take_append, hk, List.take_of_length_le (by omega)]
    congr 1
    rw [show rows.length + k + 1 - rows.length = k + 1 by omega, List.take_succ_cons]
  · exact ⟨rest, rfl⟩

end Limited

/-- A run whose batch cannot be read fails, and leaves everything as it is. -/
theorem secures_heldUp {batchSize : Nat} {e : Error} (hsecondary : n.isSecondary = true)
    (hs : Site.At store s)
    (hread : ∀ now, Store.readEvents now
      (store.eventRowsAfter (store.position n.id) (max batchSize 1)) = .error e) :
    (runOnce n batchSize).Secures Site.Waits F
      (fun result s => result = .error (.error e) ∧ Site.At store s) s := by
  rw [runOnce]
  refine .andThen ((secures_getCursor hs).imp ?_)
  rintro (f | cursor) s hcursor
  · exact hcursor.elim
  obtain ⟨hposition, hs⟩ := hcursor
  dsimp only
  generalize (cursor.map (·.eventId)).getD 0 = position at hposition
  subst hposition
  rw [if_neg (by rw [hsecondary]; decide)]
  refine .andThen (.call hs Site.at_waits fun s hs _ => ?_)
  obtain ⟨hreply, hafter⟩ := hs.call (.listEventsAfter (store.position n.id) (max batchSize 1))
  have hfails : (Call.listEventsAfter (store.position n.id) (max batchSize 1)).run s.now store =
      (.error (.error e), store) := by
    change Call.lift (Store.listEventsAfter s.now _ _) store = _
    rw [Call.lift, Store.listEventsAfter, Action.run_read, hread]
  rw [hfails] at hreply hafter
  rw [hreply]
  exact ⟨rfl, hafter⟩

/-! ## Runs one after another -/

namespace Passed

variable {nodeId : Int} {log log' : List NewEvent} {rows rows' : List (Int × EventRow)}
  {store' store'' : Store}

theorem refl (nodeId : Int) (store : Store) :
    Passed nodeId [] (store.rowsAfter (store.position nodeId)) store store :=
  have hnothing : Replayed nodeId (([] : List NewEvent).zip []) store store := .refl nodeId store
  .none rfl hnothing rfl

theorem trans (h : Passed nodeId log rows store store')
    (h' : Passed nodeId log' rows' store' store'') :
    Passed nodeId (log ++ log') rows' store store'' := ⟨h.came.trans h'.came, h'.ahead⟩

theorem contains_node (h : Passed nodeId log rows store store')
    (hnode : store.nodes.contains nodeId = true) : store'.nodes.contains nodeId = true := by
  obtain ⟨times, -, hreplayed⟩ := h.came.replayed
  exact hreplayed.nodes ▸ hnode

end Passed

/-- How many events runs consume, the first of which has `left` readable ones in front of it and
then one that cannot be read: a batch that lies within them, or nothing. -/
def consumed : (left : Nat) → (batchSizes : List Nat) → List Nat
  | _, [] => []
  | left, batchSize :: batchSizes =>
    if Fits batchSize left then
      max batchSize 1 :: consumed (left - max batchSize 1) batchSizes
    else 0 :: consumed left batchSizes

/-- A run reports how many events it has consumed, or has failed with `e` and consumed none. -/
def Accounts (e : Error) : Except Error BatchReport → Nat → Prop
  | .ok report, count => report.processed = count ∧ count ≠ 0
  | .error e', count => e' = e ∧ count = 0

/-- **What runs come to** in front of an event that cannot be read: they have passed the events they
have consumed, and no other. -/
structure HeldUp (nodeId : Int) (e : Error) (batchSizes : List Nat) (log : List NewEvent)
    (rows rows' : List (Int × EventRow)) (store store' : Store)
    (reports : List (Except Error BatchReport)) : Prop where
  passed : Passed nodeId (log.take (consumed log.length batchSizes).sum)
    (rows.drop (consumed log.length batchSizes).sum ++ rows') store store'
  reports : List.Forall₂ (Accounts e) reports (consumed log.length batchSizes)

section Runs

variable {e : Error} {log : List NewEvent} {rows rest : List (Int × EventRow)}
  {r : Int × EventRow}

/-- A batch in front of the row is passed. -/
theorem secures_of_fits (hsecondary : n.isSecondary = true) (hs : Site.At store s)
    (hnode : store.nodes.contains n.id = true)
    (hrows : store.rowsAfter (store.position n.id) = rows ++ r :: rest) (hlog : Says rows log)
    {batchSize : Nat} (hfits : Fits batchSize rows.length) :
    (runOnce n batchSize).attempt.Secures Site.Waits F (Returns False fun result s =>
      ∃ report, result = .ok report ∧ ∃ store',
        Passed n.id (log.take (max batchSize 1)) (rows.drop (max batchSize 1) ++ r :: rest)
          store store' ∧ Site.At store' s ∧
        report = ⟨(log.take (max batchSize 1)).length, store'.position n.id⟩) s := by
  have hbatch : Store.limited (max batchSize 1) (rows ++ r :: rest) =
      rows.take (max batchSize 1) := limited_of_fits hfits
  rw [← hrows, ← Store.eventRowsAfter_eq] at hbatch
  have hfirst : Says (store.eventRowsAfter (store.position n.id) (max batchSize 1))
      (log.take (max batchSize 1)) := by
    rw [hbatch]
    exact List.forall₂_take _ hlog
  have hleft : store.eventRowsAfter (store.position n.id) (max batchSize 1) ++
      (rows.drop (max batchSize 1) ++ r :: rest) = store.rowsAfter (store.position n.id) := by
    rw [hbatch, hrows, ← List.append_assoc, List.take_append_drop]
  exact (secures_batch hsecondary hs hnode hfirst hleft).attempt_ok id

/-- A batch that holds the row fails, and changes nothing. -/
theorem secures_of_not_fits (hsecondary : n.isSecondary = true) (hr : r.2.content = .error e)
    (hs : Site.At store s)
    (hrows : store.rowsAfter (store.position n.id) = rows ++ r :: rest) (hlog : Says rows log)
    {batchSize : Nat} (hfits : ¬ Fits batchSize rows.length) :
    (runOnce n batchSize).attempt.Secures Site.Waits F
      (Returns False fun result s => result = .error e ∧ Site.At store s) s := by
  obtain ⟨tail, hbatch⟩ : ∃ tail, Store.limited (max batchSize 1) (rows ++ r :: rest) =
      rows ++ r :: tail := limited_of_not_fits hfits
  rw [← hrows, ← Store.eventRowsAfter_eq] at hbatch
  have hread : ∀ now, Store.readEvents now
      (store.eventRowsAfter (store.position n.id) (max batchSize 1)) = .error e := fun now => by
    rw [hbatch]
    exact Store.readEvents_of_unreadable hlog hr
  refine .attempt ((secures_heldUp hsecondary hs hread).imp ?_)
  rintro _ s ⟨rfl, hs⟩
  exact ⟨rfl, hs⟩

/-- **Any number of runs**, each with its own size of batch. -/
theorem secures_runs (hsecondary : n.isSecondary = true) (hr : r.2.content = .error e)
    (batchSizes : List Nat) (hs : Site.At store s) (hnode : store.nodes.contains n.id = true)
    (hrows : store.rowsAfter (store.position n.id) = rows ++ r :: rest) (hlog : Says rows log) :
    (runs n batchSizes).Secures Site.Waits F (Returns False fun reports s => ∃ store',
      HeldUp n.id e batchSizes log rows (r :: rest) store store' reports ∧ Site.At store' s) s := by
  induction batchSizes generalizing store s rows log with
  | nil =>
    refine ⟨store, ⟨?_, .nil⟩, hs⟩
    change Passed n.id (log.take 0) (rows.drop 0 ++ r :: rest) store store
    rw [List.take_zero, List.drop_zero, ← hrows]
    exact .refl n.id store
  | cons batchSize batchSizes ih =>
    have hlength : rows.length = log.length := hlog.length_eq
    rw [runs]
    by_cases hfits : Fits batchSize rows.length
    · -- a shorter log is left
      refine .bind (secures_of_fits hsecondary hs hnode hrows hlog hfits) ?_
      rintro _ s ⟨report, rfl, store', hpassed, hs, rfl⟩
      refine .bind (ih hs (hpassed.contains_node hnode) hpassed.ahead
        (List.forall₂_drop _ hlog)) ?_
      rintro reports s ⟨store'', ⟨hrest, hreports⟩, hs⟩
      rw [List.length_drop] at hrest hreports
      have hconsumed : consumed log.length (batchSize :: batchSizes) =
          max batchSize 1 :: consumed (log.length - max batchSize 1) batchSizes := by
        rw [consumed, if_pos (hlength ▸ hfits)]
      refine ⟨store'', ⟨?_, ?_⟩, hs⟩
      · rw [hconsumed, List.sum_cons, List.take_add, ← List.drop_drop]
        exact hpassed.trans hrest
      · rw [hconsumed]
        refine .cons ⟨?_, by omega⟩ hreports
        rw [List.length_take]
        exact Nat.min_eq_left (hlength ▸ hfits.1)
    · refine .bind (secures_of_not_fits hsecondary hr hs hrows hlog hfits) ?_
      rintro _ s ⟨rfl, hs⟩
      refine .bind (ih hs hnode hrows hlog) ?_
      rintro reports s ⟨store', ⟨hpassed, hreports⟩, hs⟩
      have hconsumed : consumed log.length (batchSize :: batchSizes) =
          0 :: consumed log.length batchSizes := by
        rw [consumed, if_neg (hlength ▸ hfits)]
      refine ⟨store', ⟨?_, ?_⟩, hs⟩
      · rw [hconsumed, List.sum_cons, Nat.zero_add]
        exact hpassed
      · rw [hconsumed]
        exact .cons ⟨rfl, rfl⟩ hreports

end Runs

/-! ## How far runs come -/

theorem sum_consumed_le : ∀ (left : Nat) (batchSizes : List Nat),
    (consumed left batchSizes).sum ≤ left
  | _, [] => Nat.zero_le _
  | left, batchSize :: batchSizes => by
      rw [consumed]
      split
      · next hfits =>
        have hrest := sum_consumed_le (left - max batchSize 1) batchSizes
        have hle := hfits.1
        rw [List.sum_cons]
        omega
      · rw [List.sum_cons, Nat.zero_add]
        exact sum_consumed_le left batchSizes

/-- Batches of one length are consumed as often as they lie within the readable events. -/
theorem sum_consumed_replicate {batchSize : Nat} (hpos : 0 < batchSize)
    (hlimit : batchSize < Nat.pow 2 63) : ∀ (count left : Nat),
    (consumed left (List.replicate count batchSize)).sum = batchSize * min count (left / batchSize)
  | 0, _ => by rw [Nat.zero_min]; rfl
  | count + 1, left => by
      have hmax : max batchSize 1 = batchSize := Nat.max_eq_left hpos
      have hfits : Fits batchSize left ↔ batchSize ≤ left := by
        unfold Fits
        rw [hmax]
        exact and_iff_left hlimit
      rw [List.replicate_succ, consumed]
      by_cases hle : batchSize ≤ left
      · rw [if_pos (hfits.mpr hle), List.sum_cons, hmax, sum_consumed_replicate hpos hlimit count,
          Nat.div_eq_sub_div hpos hle, Nat.add_min_add_right, Nat.mul_succ, Nat.add_comm]
      · rw [if_neg fun h => hle (hfits.mp h), List.sum_cons,
          sum_consumed_replicate hpos hlimit count, Nat.div_eq_of_lt (Nat.not_le.mp hle),
          Nat.min_zero, Nat.min_zero, Nat.zero_add]

/-- They have passed the first `count` events exactly if that is what they have consumed. -/
theorem HeldUp.passed_iff {nodeId : Int} {e : Error} {batchSizes : List Nat} {log : List NewEvent}
    {rows rows' : List (Int × EventRow)} {store' : Store}
    {reports : List (Except Error BatchReport)}
    (h : HeldUp nodeId e batchSizes log rows rows' store store' reports)
    (hlength : rows.length = log.length) (count : Nat) :
    Passed nodeId (log.take count) (rows.drop count ++ rows') store store' ↔
      min count log.length = (consumed log.length batchSizes).sum := by
  have hle := sum_consumed_le log.length batchSizes
  constructor
  · intro hpassed
    -- both leave the same rows ahead
    have hrows := congrArg List.length (hpassed.ahead.symm.trans h.passed.ahead)
    simp only [List.length_append, List.length_drop, hlength] at hrows
    omega
  · intro hcount
    have hpassed := h.passed
    rw [← hcount] at hpassed
    have hlog : log.take (min count log.length) = log.take count := by
      rw [← List.take_take, List.take_length]
    have hrows : rows.drop (min count log.length) = rows.drop count := by
      rcases Nat.le_total count log.length with hshort | hlong
      · rw [Nat.min_eq_left hshort]
      · rw [Nat.min_eq_right hlong, List.drop_of_length_le (Nat.le_of_eq hlength),
          List.drop_of_length_le (hlength ▸ hlong)]
    rwa [hlog, hrows] at hpassed

/-- **An event that cannot be read holds up its batch.**  Runs of a secondary with nothing else
going wrong, each with its own size of batch, fail with the error of the first event that cannot be
read or consume a whole batch of the readable events in front of it.  So one run passes the events
that its batch has in front of the unreadable one exactly if there are none, or the batch ends
there; and as many runs as one likes with batches of one size come to the last multiple of that
size, which is the unreadable event exactly if the size divides the number of events in front of
it. -/
theorem unreadable_holds_up {log : List NewEvent} {rows rest : List (Int × EventRow)}
    {r : Int × EventRow} {e : Error} (hsecondary : n.isSecondary = true) (hfaults : s.faults = [])
    (hnode : s.store.nodes.contains n.id = true)
    (hrows : s.store.rowsAfter (s.store.position n.id) = rows ++ r :: rest) (hlog : Says rows log)
    (hr : r.2.content = .error e) :
    (∀ batchSizes,
      (∃ reports s', (runs n batchSizes).run s = (.ok reports, s') ∧
        HeldUp n.id e batchSizes log rows (r :: rest) s.store s'.store reports) ∧
      ∀ h result s', (runs n batchSizes).Reaches Site.Waits s h (ofExcept result) s' →
        ∃ reports, result = .ok reports ∧
          HeldUp n.id e batchSizes log rows (r :: rest) s.store s'.store reports) ∧
    (∀ batchSize, Passed n.id (log.take (max batchSize 1))
      (rows.drop (max batchSize 1) ++ r :: rest) s.store ((runs n [batchSize]).run s).2.store ↔
        log = [] ∨ Fits batchSize log.length) ∧
    ∀ batchSize count, 0 < batchSize → batchSize < 2 ^ 63 → log.length ≤ count →
      Passed n.id (log.take (batchSize * (log.length / batchSize)))
        (rows.drop (batchSize * (log.length / batchSize)) ++ r :: rest)
        s.store ((runs n (List.replicate count batchSize)).run s).2.store ∧
      (Passed n.id log (r :: rest) s.store
        ((runs n (List.replicate count batchSize)).run s).2.store ↔ batchSize ∣ log.length) := by
  have hlength : rows.length = log.length := hlog.length_eq
  have hsecures := fun batchSizes => secures_runs (F := fun _ _ => True) hsecondary hr batchSizes
    ⟨rfl, hfaults⟩ hnode hrows hlog
  have hrun : ∀ batchSizes, ∃ reports s', (runs n batchSizes).run s = (.ok reports, s') ∧
      HeldUp n.id e batchSizes log rows (r :: rest) s.store s'.store reports := fun batchSizes => by
    obtain ⟨reports, s', hrun, store', hheld, hstore, -⟩ :=
      (hsecures batchSizes).achieves (throughout_of fun _ _ => trivial)
    exact ⟨reports, s', hrun, hstore ▸ hheld⟩
  have hpassed : ∀ batchSizes count, Passed n.id (log.take count) (rows.drop count ++ r :: rest)
      s.store ((runs n batchSizes).run s).2.store ↔
        min count log.length = (consumed log.length batchSizes).sum := fun batchSizes count => by
    obtain ⟨reports, s', hrun, hheld⟩ := hrun batchSizes
    rw [hrun]
    exact hheld.passed_iff hlength count
  refine ⟨fun batchSizes => ⟨hrun batchSizes, fun h result s' hr => ?_⟩, fun batchSize => ?_,
    fun batchSize count hpos hlimit hcount => ?_⟩
  · obtain ⟨s₁, hwaits, hend⟩ := hr.secures (fun _ _ => trivial) (hsecures batchSizes)
    rw [Site.waits_store hwaits]
    rcases result with f | reports
    · exact hend.elim
    · obtain ⟨store', hheld, hstore, -⟩ := hend
      exact ⟨reports, rfl, hstore ▸ hheld⟩
  · rw [hpassed, consumed, ← List.length_eq_zero_iff]
    by_cases hfits : Fits batchSize log.length
    · have hle := hfits.1
      simp [hfits, consumed, Nat.min_eq_left hle]
    · simp only [hfits, if_false, consumed, List.sum_cons, List.sum_nil, or_false]
      omega
  · have hdiv : log.length / batchSize ≤ count := Nat.le_trans (Nat.div_le_self _ _) hcount
    have hsum := sum_consumed_replicate hpos hlimit count log.length
    rw [Nat.min_eq_right hdiv] at hsum
    refine ⟨?_, ?_⟩
    · rw [hpassed, hsum]
      exact Nat.min_eq_left (Nat.mul_div_le _ _)
    · have hall := hpassed (List.replicate count batchSize) log.length
      rw [List.take_length, List.drop_of_length_le (Nat.le_of_eq hlength), List.nil_append,
        Nat.min_self, hsum] at hall
      rw [hall]
      exact ⟨fun h => ⟨_, h⟩, fun h => (Nat.mul_div_cancel' h).symm⟩

/-! ### Three events and one that cannot be read -/

/-- A site whose log has three events of a project, one with a word that says nothing, and another
event behind it. -/
def archivedSite : Site :=
  let updated : EventRow := ⟨"repository_updated", 1, none, ""⟩
  .start .epoch
    { Store.empty with
      nodes := (Store.Numbered.empty.insert
        ⟨⟨"http", "primary", 80, ""⟩, true, true, 25, 10, "", ""⟩).insert
        ⟨⟨"http", "secondary", 80, ""⟩, false, true, 25, 10, "", ""⟩
      projects := Store.Numbered.empty.insert
        ⟨1, "p", "g/p", "default", false, none, none, none, ""⟩
      events := ((((Store.Numbered.empty.insert updated).insert updated).insert updated).insert
        ⟨"repository_archived", 1, none, ""⟩).insert updated } []

/-- The row that cannot be read. -/
def archivedRow : Int × EventRow := (4, ⟨"repository_archived", 1, none, ""⟩)

/-- The rows in front of it. -/
def readableRows : List (Int × EventRow) :=
  [1, 2, 3].map fun id => (id, ⟨"repository_updated", 1, none, ""⟩)

/-- What they say. -/
def readableLog : List NewEvent := List.replicate 3 ⟨.updated, 1, none⟩

theorem says_readableLog : Says readableRows readableLog :=
  .cons rfl (.cons rfl (.cons rfl .nil))

/-- With batches of two, runs come past two of the three events. -/
theorem unreadable_holds_up_archived : mixedNode.isSecondary = true ∧ archivedSite.faults = [] ∧
    archivedSite.store.nodes.contains mixedNode.id = true ∧
    archivedSite.store.rowsAfter (archivedSite.store.position mixedNode.id) =
      readableRows ++ archivedRow :: [(5, ⟨"repository_updated", 1, none, ""⟩)] ∧
    Says readableRows readableLog ∧
    archivedRow.2.content = .error (.database (.unknownWord 1 "repository_archived")) ∧
    Passed 2 (readableLog.take 2)
      (readableRows.drop 2 ++ [archivedRow, (5, ⟨"repository_updated", 1, none, ""⟩)])
      archivedSite.store ((runs mixedNode (List.replicate 3 2)).run archivedSite).2.store := by
  have hrows : archivedSite.store.rowsAfter (archivedSite.store.position mixedNode.id) =
      readableRows ++ archivedRow :: [(5, ⟨"repository_updated", 1, none, ""⟩)] := by rfl
  have hheld := unreadable_holds_up rfl rfl (by decide) hrows says_readableLog
    (e := .database (.unknownWord 1 "repository_archived")) rfl
  exact ⟨rfl, rfl, by decide, hrows, says_readableLog, rfl,
    (hheld.2.2 2 3 (by decide) (by decide) (by decide)).1⟩

/-- **The events in front wait too**: with a batch of four the run fails and nothing has changed, so
the cursor is not past the three that could be applied, as it is after runs with batches of one. -/
theorem readable_events_wait :
    ((runOnce mixedNode 4).run archivedSite).1 =
      .error (.error (.database (.unknownWord 1 "repository_archived"))) ∧
    (((runOnce mixedNode 4).run archivedSite).2.store.position 2,
      ((runs mixedNode (List.replicate 4 1)).run archivedSite).2.store.position 2) = (0, 3) ∧
    Says (archivedSite.store.rowsAfter 0 |>.take 3) readableLog := by
  exact ⟨by decide, by decide, says_readableLog⟩

end EventLog

end GeoReplication
