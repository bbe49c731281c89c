import GeoReplication.Proofs.EventLog.Replay
import GeoReplication.Proofs.Program.Secures
import GeoReplication.Proofs.Store.Cursors

/-!
# Proofs/EventLog/CaughtUp — catching up with the log in batches

    ── run, k₁ events ──▸ ── run, k₂ events ──▸ … ── run, no events ──▸

A secondary runs until a run finds nothing to do.  That is after no more runs than there are events
and one, and what the batches have done together is the replay of all of them
(`EventLog.catchUp_replays`), however long the batches are.  Time goes on meanwhile, so each event
has a time of its own; nothing else happens, and no call fails.
-/

namespace GeoReplication

open GeoReplication.Time Relation

/-! ## Sites where nothing happens but time -/

namespace Site

/-- Time goes on. -/
def Waits (s s' : Site) : Prop := ∃ now uptime, s' = { s with now, uptime }

/-- What is at the site stays as it is. -/
theorem waits_store {s s' : Site} (h : ReflTransGen Waits s s') : s'.store = s.store := by
  induction h with
  | refl => rfl
  | tail _ hw ih =>
    obtain ⟨now, uptime, rfl⟩ := hw
    exact ih

/-- The store there, and no fault. -/
def At (store : Store) (s : Site) : Prop := s.store = store ∧ s.faults = []

theorem at_waits {store : Store} (s s' : Site) (h : At store s) (hw : Waits s s') :
    At store s' := by
  obtain ⟨now, uptime, rfl⟩ := hw
  exact h

/-- Without faults operations are carried out. -/
theorem At.call {store : Store} {s : Site} (h : At store s) (c : Call) :
    (s.call c).1 = (c.run s.now store).1 ∧ At (c.run s.now store).2 (s.call c).2 := by
  obtain ⟨rfl, hfaults⟩ := h
  rw [Site.call, hfaults]
  exact ⟨rfl, rfl, rfl⟩

end Site

/-! ## What rows say -/

/-- The rows say this, one after another. -/
def Says (rows : List (Int × EventRow)) (log : List NewEvent) : Prop :=
  List.Forall₂ (fun r c => r.2.content = .ok c) rows log

/-- What was read is what the rows say. -/
theorem says_of_readEvents {now : Instant} {rows : List (Int × EventRow)} {events : List Event}
    (h : Store.readEvents now rows = .ok events) : Says rows (events.map Event.content) := by
  refine List.forall₂_map_right_iff.mpr ((Store.readEvents_ok h).imp fun r e hrecord => ?_)
  rw [EventRow.record_eq] at hrecord
  cases hcontent : r.2.content with
  | error f =>
    rw [hcontent] at hrecord
    cases hrecord
  | ok c =>
    rw [hcontent] at hrecord
    cases hrecord
    rfl

/-- What rows say can be read at any time. -/
theorem Says.readEvents {rows : List (Int × EventRow)} {log : List NewEvent} (h : Says rows log)
    (now : Instant) : ∃ events, Store.readEvents now rows = .ok events ∧
      events.map Event.content = log ∧ events.map Event.id = rows.map Prod.fst := by
  induction h with
  | nil => exact ⟨[], rfl, rfl, rfl⟩
  | @cons r c rows log hcontent _ ih =>
    obtain ⟨events, hread, hlog, hids⟩ := ih
    have hrecord : r.2.record now r.1 =
        .ok ⟨r.1, c.eventType, c.projectId, c.source, .ofStored now r.2.createdAt⟩ := by
      rw [EventRow.record_eq, hcontent]
      rfl
    refine ⟨⟨r.1, c.eventType, c.projectId, c.source, .ofStored now r.2.createdAt⟩ :: events, ?_,
      congrArg (c :: ·) hlog, congrArg (r.1 :: ·) hids⟩
    rw [Store.readEvents, hrecord, hread]
    rfl

/-- Events are read under their numbers. -/
theorem ids_of_readEvents {now : Instant} {rows : List (Int × EventRow)} {events : List Event}
    (h : Store.readEvents now rows = .ok events) : events.map Event.id = rows.map Prod.fst := by
  obtain ⟨_, hread, -, hids⟩ := (says_of_readEvents h).readEvents now
  obtain rfl := Except.ok.inj (hread.symm.trans h)
  exact hids

/-- Rows say one after another what they say in parts. -/
theorem Says.split {rows rows' : List (Int × EventRow)} {log : List NewEvent}
    (h : Says (rows ++ rows') log) :
    ∃ first rest, log = first ++ rest ∧ Says rows first ∧ Says rows' rest := by
  have hfirst := List.forall₂_take rows.length h
  have hrest := List.forall₂_drop rows.length h
  rw [List.take_left] at hfirst
  rw [List.drop_left] at hrest
  exact ⟨_, _, (List.take_append_drop rows.length log).symm, hfirst, hrest⟩

namespace EventLog

open Program

variable {n : Node} {store : Store} {s : Site} {F : Site → Effect → Prop}

/-! ## Single events -/

/-- An operation that is answered. -/
theorem secures_call {c : Call} {post : c.Reply → Site → Prop} (hs : Site.At store s)
    (hc : ∀ now, ∃ a store', c.run now store = (.ok a, store') ∧
      ∀ s', Site.At store' s' → post a s') :
    (call c).Secures Site.Waits F (Returns False post) s := by
  refine .call hs Site.at_waits fun s hs _ => ?_
  obtain ⟨a, store', hrun, hpost⟩ := hc s.now
  obtain ⟨hreply, hafter⟩ := hs.call c
  rw [hrun] at hreply hafter
  rw [hreply]
  exact hpost _ hafter

/-- The events were replayed, each at a time, and no cursor was moved. -/
def HasReplayed (nodeId : Int) (log : List NewEvent) (store : Store) (s : Site) : Prop :=
  ∃ times store', times.length = log.length ∧ Replayed nodeId (log.zip times) store store' ∧
    store'.cursors = store.cursors ∧ Site.At store' s

theorem secures_delete {e : Event} (htype : e.eventType = .deleted) (hs : Site.At store s) :
    (call (.deleteRegistry n.id e.projectId)).Secures Site.Waits F
      (Returns False fun _ s => HasReplayed n.id [e.content] store s) s :=
  secures_call hs fun now => ⟨_, _, rfl, fun _ hs' =>
    ⟨[""], _, rfl, .removed htype now "" store, rfl, hs'⟩⟩

theorem secures_request {e : Event} (htype : e.eventType ≠ .deleted) (hs : Site.At store s)
    (hnode : store.nodes.contains n.id = true)
    (hknown : store.projects.contains e.projectId = true) :
    (call (.requestResync n.id e.projectId (marked e))).Secures Site.Waits F
      (Returns False fun _ s => HasReplayed n.id [e.content] store s) s :=
  secures_call hs fun now => by
    obtain ⟨store', hrun, hw⟩ :=
      Call.run_requestResync_of_known now n.id e.projectId (marked e) store hnode hknown
    exact ⟨(), store', hrun, fun _ hs' =>
      ⟨[now.stored], _, rfl, .requested htype hknown hw, by rw [hw.rest], hs'⟩⟩

/-- **An event is applied or skipped**, and either way it was replayed. -/
theorem secures_apply (e : Event) (hs : Site.At store s)
    (hnode : store.nodes.contains n.id = true) :
    (apply n e).attempt.Secures Site.Waits F (Returns False fun r s =>
      (r = .ok () ∨ r = .error .notFound) ∧ HasReplayed n.id [e.content] store s) s := by
  by_cases htype : e.eventType = .deleted
  · have happlied : (apply n e).Secures Site.Waits F (Returns False fun _ s =>
        HasReplayed n.id [e.content] store s) s := by
      rw [apply_deleted htype]
      exact .bind (secures_delete htype hs) fun _ _ h => h
    refine (happlied.attempt_ok id).weaken ?_
    rintro r s ⟨a, rfl, h⟩
    exact ⟨.inl rfl, h⟩
  · rw [apply_of_ne htype]
    refine .attempt (.perform hs Site.at_waits fun s hs _ => ?_)
    obtain ⟨hreply, hafter⟩ := hs.call (.getProject e.projectId)
    change (Program.ofExcept (s.call (.getProject e.projectId)).1 >>= _).Secures _ _ _ _
    rw [hreply]
    change Secures _ _ _ (if (store.project? s.now e.projectId).isNone then _ else _) _
    rw [Store.project?]
    cases hproject : store.projects.get? e.projectId with
    | none =>
      have hunknown : store.projects.contains e.projectId = false := by
        rw [Store.Numbered.contains, hproject]
        rfl
      exact ⟨.inr rfl, [""], _, rfl, .skipped htype hunknown "", rfl, hafter⟩
    | some row =>
      have hknown : store.projects.contains e.projectId = true := by
        rw [Store.Numbered.contains, hproject]
        rfl
      refine (secures_request htype hafter hnode hknown).imp fun r s h => ?_
      cases r with
      | ok a => exact ⟨.inl rfl, h⟩
      | error f => exact h.elim

theorem HasReplayed.trans {nodeId : Int} {log log' : List NewEvent} {store' : Store}
    {times : List String} (hlength : times.length = log.length)
    (hfirst : Replayed nodeId (log.zip times) store store')
    (hcursors : store'.cursors = store.cursors) (h : HasReplayed nodeId log' store' s) :
    HasReplayed nodeId (log ++ log') store s := by
  obtain ⟨times', store'', hlength', hrest, hcursors', hs⟩ := h
  refine ⟨times ++ times', store'', by simp [hlength, hlength'], ?_, hcursors'.trans hcursors, hs⟩
  rw [List.zip_append hlength.symm]
  exact hfirst.trans hrest

theorem secures_applyAll (events : List Event) (hs : Site.At store s)
    (hnode : store.nodes.contains n.id = true) :
    (applyAll n events).Secures Site.Waits F (Returns False fun consumed s =>
      consumed = events ∧ HasReplayed n.id (events.map Event.content) store s) s := by
  induction events generalizing store s with
  | nil => exact ⟨rfl, [], store, rfl, .refl _ _, rfl, hs⟩
  | cons e events ih =>
    rw [applyAll]
    refine .bind (secures_apply e hs hnode) ?_
    rintro r s ⟨hr, times, store', hlength, hfirst, hcursors, hs⟩
    have hnode' : store'.nodes.contains n.id = true := hfirst.nodes ▸ hnode
    have hrest : (applyAll n events >>= fun rest => pure (e :: rest)).Secures Site.Waits F
        (Returns False fun consumed s => consumed = e :: events ∧
          HasReplayed n.id ((e :: events).map Event.content) store s) s := by
      refine .bind (ih hs hnode') ?_
      rintro _ s ⟨rfl, h⟩
      exact ⟨rfl, .trans hlength hfirst hcursors h⟩
    rcases hr with rfl | rfl
    · exact hrest
    · exact hrest

/-! ## What a batch leaves -/

/-- A node has come through these events. -/
structure CameTo (nodeId : Int) (log : List NewEvent) (store store' : Store) : Prop where
  replayed : ∃ times, times.length = log.length ∧ Replayed nodeId (log.zip times) store store'
  still : log = [] → store'.cursors.get? nodeId = store.cursors.get? nodeId
  moved : log ≠ [] → ∃ r ∈ store.events.rows, store'.cursors.get? nodeId = some r.1

theorem CameTo.trans {nodeId : Int} {log log' : List NewEvent} {store' store'' : Store}
    (h : CameTo nodeId log store store') (h' : CameTo nodeId log' store' store'') :
    CameTo nodeId (log ++ log') store store'' := by
  obtain ⟨times, hlength, hfirst⟩ := h.replayed
  obtain ⟨times', hlength', hrest⟩ := h'.replayed
  have hevents : store'.events = store.events := by rw [hfirst.rest]
  refine ⟨⟨times ++ times', by simp [hlength, hlength'], ?_⟩, fun hnil => ?_, fun hsome => ?_⟩
  · rw [List.zip_append hlength.symm]
    exact hfirst.trans hrest
  · obtain ⟨hlog, hlog'⟩ := List.append_eq_nil_iff.mp hnil
    rw [h'.still hlog', h.still hlog]
  · by_cases hlog' : log' = []
    · rw [h'.still hlog']
      exact h.moved fun hlog => hsome (List.append_eq_nil_iff.mpr ⟨hlog, hlog'⟩)
    · rw [← hevents]
      exact h'.moved hlog'

/-- Moving a cursor to one of the events after it moves it there. -/
theorem cursorAt_of_mem {nodeId : Int} {r : Int × EventRow}
    (h : r ∈ store.rowsAfter (store.position nodeId)) : store.cursorAt nodeId r.1 = r.1 := by
  obtain ⟨hmem, hafter⟩ := Store.mem_rowsAfter.mp h
  rw [Store.position] at hafter
  rw [Store.cursorAt, Int.min_eq_left (Store.le_lastEventId hmem)]
  cases hcursor : store.cursors.get? nodeId with
  | none => rfl
  | some cursor =>
    rw [hcursor] at hafter
    exact Int.max_eq_right (Int.le_of_lt hafter)

/-- The events that a node has still to come through say this. -/
def Left (nodeId : Int) (store : Store) (log : List NewEvent) : Prop :=
  Says (store.rowsAfter (store.position nodeId)) log

/-- What a run does: a first part of what is left, and nothing only if nothing is left. -/
def Batch (nodeId : Int) (store : Store) (log : List NewEvent) (report : BatchReport) (s : Site) :
    Prop :=
  ∃ first rest store', log = first ++ rest ∧ (first = [] → rest = []) ∧
    CameTo nodeId first store store' ∧ Left nodeId store' rest ∧ Site.At store' s ∧
    report = ⟨first.length, store'.position nodeId⟩

/-! ## Batches -/

theorem secures_getCursor (hs : Site.At store s) :
    (call (.getCursor n.id)).Secures Site.Waits F (Returns False fun cursor s =>
      (cursor.map (·.eventId)).getD 0 = store.position n.id ∧ Site.At store s) s := by
  refine secures_call hs fun now => ⟨_, _, rfl, fun s' hs' => ⟨?_, hs'⟩⟩
  rw [Store.position]
  cases store.cursors.get? n.id <;> rfl

theorem secures_listEventsAfter {afterId : Int} {limit : Nat} {log : List NewEvent}
    (hs : Site.At store s) (hlog : Says (store.eventRowsAfter afterId limit) log) :
    (call (.listEventsAfter afterId limit)).Secures Site.Waits F (Returns False fun events s =>
      events.map Event.content = log ∧
        events.map Event.id = (store.eventRowsAfter afterId limit).map Prod.fst ∧
        Site.At store s) s := by
  refine secures_call hs fun now => ?_
  obtain ⟨events, hread, hcontents, hids⟩ := hlog.readEvents now
  refine ⟨events, store, ?_, fun s' hs' => ⟨hcontents, hids, hs'⟩⟩
  change Call.lift (Store.listEventsAfter now afterId limit) store = _
  rw [Call.lift, Store.listEventsAfter, Action.run_read, hread]

theorem secures_advanceCursor {eventId : Int} (hs : Site.At store s)
    (hnode : store.nodes.contains n.id = true) :
    (call (.advanceCursor n.id eventId)).Secures Site.Waits F (Returns False fun moved s =>
      moved = store.cursorAt n.id eventId ∧
        Site.At { store with cursors := store.movedCursors n.id eventId } s) s := by
  refine secures_call hs fun now => ⟨_, _, ?_, fun s' hs' => ⟨rfl, hs'⟩⟩
  change Call.lift (Store.advanceCursor n.id eventId) store = _
  rw [Call.lift, Store.run_advanceCursor_of_known eventId (by rw [hnode, Bool.or_true])]

/-- A node has come through these events, and these rows of the log are still ahead of it. -/
structure Passed (nodeId : Int) (log : List NewEvent) (rows : List (Int × EventRow))
    (store store' : Store) : Prop where
  came : CameTo nodeId log store store'
  ahead : store'.rowsAfter (store'.position nodeId) = rows

/-- Nothing is passed by a batch without events. -/
theorem Passed.none {nodeId : Int} {times : List String} {store' : Store}
    (hlength : times.length = ([] : List NewEvent).length)
    (hreplayed : Replayed nodeId (([] : List NewEvent).zip times) store store')
    (hcursors : store'.cursors = store.cursors) :
    Passed nodeId [] (store.rowsAfter (store.position nodeId)) store store' := by
  refine ⟨⟨⟨times, hlength, hreplayed⟩, fun _ => by rw [hcursors], fun h => absurd rfl h⟩, ?_⟩
  rw [Store.position, hcursors, hreplayed.rowsAfter, Store.position]

/-- The cursor is moved to the last of the events that were replayed. -/
theorem Passed.moved {nodeId : Int} {first : List NewEvent} {times : List String}
    {store' : Store} {r : Int × EventRow} {before rows : List (Int × EventRow)}
    (hlength : times.length = first.length)
    (hreplayed : Replayed nodeId (first.zip times) store store')
    (hcursors : store'.cursors = store.cursors) (hfirst : first ≠ [])
    (hrows : store.rowsAfter (store.position nodeId) = before ++ r :: rows) :
    Passed nodeId first rows store { store' with cursors := store'.movedCursors nodeId r.1 } ∧
      Store.position { store' with cursors := store'.movedCursors nodeId r.1 } nodeId =
        store'.cursorAt nodeId r.1 := by
  have hr : r ∈ store.rowsAfter (store.position nodeId) :=
    hrows ▸ List.mem_append_right _ List.mem_cons_self
  have hmem : r ∈ store'.rowsAfter (store'.position nodeId) := by
    rw [hreplayed.rowsAfter, Store.position, hcursors]
    exact hr
  have hcursor : (store'.movedCursors nodeId r.1).get? nodeId = some r.1 := by
    rw [Store.get?_movedCursors, if_pos rfl, cursorAt_of_mem hmem]
  have hposition : Store.position { store' with cursors := store'.movedCursors nodeId r.1 } nodeId =
      r.1 := by
    rw [Store.position, hcursor, Option.getD_some]
  refine ⟨⟨⟨⟨times, hlength, hreplayed.moved r.1⟩, fun h => absurd h hfirst,
    fun _ => ⟨r, (Store.mem_rowsAfter.mp hr).1, hcursor⟩⟩, ?_⟩, ?_⟩
  · rw [hposition, (hreplayed.moved r.1).rowsAfter, Store.rowsAfter_of_split hrows]
  · rw [hposition, cursorAt_of_mem hmem]

/-- **A run passes its batch**, if that can be read, whatever stands behind it. -/
theorem secures_batch {first : List NewEvent} {rows : List (Int × EventRow)}
    (hsecondary : n.isSecondary = true) (hs : Site.At store s)
    (hnode : store.nodes.contains n.id = true) {batchSize : Nat}
    (hfirst : Says (store.eventRowsAfter (store.position n.id) (max batchSize 1)) first)
    (hrows : store.eventRowsAfter (store.position n.id) (max batchSize 1) ++ rows =
      store.rowsAfter (store.position n.id)) :
    (runOnce n batchSize).Secures Site.Waits F (Returns False fun report s =>
      ∃ store', Passed n.id first rows store store' ∧ Site.At store' s ∧
        report = ⟨first.length, store'.position n.id⟩) s := by
  rw [runOnce]
  refine .bind (secures_getCursor hs) fun cursor s ⟨hcursor, hs⟩ => ?_
  dsimp only
  generalize (cursor.map (·.eventId)).getD 0 = position at hcursor
  subst hcursor
  rw [if_neg (by rw [hsecondary]; decide)]
  refine .bind (secures_listEventsAfter hs hfirst) fun events s ⟨hcontents, hids, hs⟩ => ?_
  refine .bind (secures_applyAll events hs hnode) ?_
  rintro events s ⟨rfl, times, store', hlength, hreplayed, hcursors, hs⟩
  rw [hcontents] at hlength hreplayed
  have hcount : events.length = first.length := by rw [← hcontents, List.length_map]
  generalize store.eventRowsAfter (store.position n.id) (max batchSize 1) = listed at *
  rcases List.eq_nil_or_concat listed with rfl | ⟨before, r, rfl⟩
  · -- the batch is empty
    obtain rfl : events = [] := List.map_eq_nil_iff.mp hids
    obtain rfl := hcontents
    obtain rfl : rows = _ := hrows
    refine ⟨store', .none hlength hreplayed hcursors, hs, ?_⟩
    rw [Store.position, Store.position, hcursors]
    rfl
  · rw [List.concat_eq_append] at *
    obtain ⟨done, _, rfl, -, hlast⟩ := List.map_eq_append_iff.mp (hids.trans List.map_append)
    obtain ⟨last, rfl, hid⟩ := List.map_eq_singleton_iff.mp hlast
    rw [List.append_assoc, List.singleton_append] at hrows
    have hsome : first ≠ [] := by
      rintro rfl
      simp at hcount
    have hnode' : store'.nodes.contains n.id = true := hreplayed.nodes ▸ hnode
    rw [List.getLast?_concat]
    refine .bind (secures_advanceCursor hs hnode') ?_
    rintro _ s ⟨rfl, hs⟩
    rw [hid] at hs ⊢
    obtain ⟨hpassed, hposition⟩ := Passed.moved hlength hreplayed hcursors hsome hrows.symm
    exact ⟨_, hpassed, hs, by rw [hposition, hcount]⟩

/-- **A run** goes through a first part of what is left. -/
theorem secures_runOnce {log : List NewEvent} (hsecondary : n.isSecondary = true)
    (hs : Site.At store s) (hnode : store.nodes.contains n.id = true) (hlog : Left n.id store log)
    (batchSize : Nat) :
    (runOnce n batchSize).Secures Site.Waits F (Returns False (Batch n.id store log)) s := by
  obtain ⟨rows, hrows⟩ := Store.limited_prefix (max batchSize 1)
    (store.rowsAfter (store.position n.id))
  have hnonempty : store.rowsAfter (store.position n.id) ≠ [] →
      Store.limited (max batchSize 1) (store.rowsAfter (store.position n.id)) ≠ [] :=
    Store.limited_ne_nil (Nat.le_max_right _ _)
  rw [← Store.eventRowsAfter_eq] at hrows hnonempty
  rw [Left, ← hrows] at hlog
  obtain ⟨first, rest, rfl, hfirst, hrest⟩ := hlog.split
  refine (secures_batch hsecondary hs hnode hfirst hrows).weaken ?_
  rintro report s ⟨store', hpassed, hs, rfl⟩
  have hleft : Left n.id store' rest := by
    rw [Left, hpassed.ahead]
    exact hrest
  refine ⟨first, rest, store', rfl, ?_, hpassed.came, hleft, hs, rfl⟩
  rintro rfl
  have hlisted := List.forall₂_nil_right_iff.mp hfirst
  have hnone : store.rowsAfter (store.position n.id) = [] :=
    Classical.not_not.mp fun h => hnonempty h hlisted
  rw [hlisted, hnone] at hrows
  obtain rfl : rows = [] := hrows
  exact List.forall₂_nil_left_iff.mp hrest

/-! ## Catching up -/

/-- Runs until one finds nothing to do, but no more than `calls`. -/
def catchUp (n : Node) (batchSize : Nat) : Nat → Program (List BatchReport)
  | 0 => pure []
  | calls + 1 => do
    let report ← runOnce n batchSize
    if report.processed = 0 then return [report]
    return report :: (← catchUp n batchSize calls)

/-- The last run found nothing to do, and left the cursor there; all before it did something, and
together as much as there was. -/
inductive Exhausts (position : Int) : List BatchReport → Nat → Prop
  | nothing : Exhausts position [⟨0, position⟩] 0
  | batch {report : BatchReport} {reports : List BatchReport} {total : Nat} :
    report.processed ≠ 0 → Exhausts position reports total →
      Exhausts position (report :: reports) (report.processed + total)

/-- A node has come through these events, and has none left. -/
def Drained (nodeId : Int) (log : List NewEvent) (store : Store) (reports : List BatchReport)
    (s : Site) : Prop :=
  CameTo nodeId log store s.store ∧ s.store.rowsAfter (s.store.position nodeId) = [] ∧
    Exhausts (s.store.position nodeId) reports log.length

theorem secures_catchUp (hsecondary : n.isSecondary = true) (batchSize : Nat) {calls : Nat}
    {log : List NewEvent} (hs : Site.At store s) (hnode : store.nodes.contains n.id = true)
    (hlog : Left n.id store log) (hcalls : log.length < calls) :
    (catchUp n batchSize calls).Secures Site.Waits F (Returns False (Drained n.id log store))
      s := by
  induction calls generalizing store s log with
  | zero => exact absurd hcalls (Nat.not_lt_zero _)
  | succ calls ih =>
    refine .bind (secures_runOnce hsecondary hs hnode hlog batchSize) ?_
    rintro _ s ⟨first, rest, _, rfl, hall, hcame, hleft, ⟨rfl, hfaults⟩, rfl⟩
    by_cases hfirst : first = []
    · obtain rfl := hall hfirst
      subst hfirst
      exact ⟨hcame, List.forall₂_nil_right_iff.mp hleft, .nothing⟩
    · have hprocessed : first.length ≠ 0 := fun h => hfirst (List.length_eq_zero_iff.mp h)
      have hnode' : s.store.nodes.contains n.id = true := by
        obtain ⟨times, -, hreplayed⟩ := hcame.replayed
        exact hreplayed.nodes ▸ hnode
      rw [List.length_append] at hcalls
      dsimp only
      rw [if_neg hprocessed]
      refine .bind (ih ⟨rfl, hfaults⟩ hnode' hleft (by omega)) ?_
      rintro reports s' ⟨hrest, hnone, hexhausts⟩
      refine ⟨hcame.trans hrest, hnone, ?_⟩
      rw [List.length_append]
      exact .batch hprocessed hexhausts

/-- **Where catching up leads**: the cursor is at the last event, and the registries of the node are
what the events make of them, all others as they were. -/
structure CaughtUp (nodeId : Int) (log : List NewEvent) (store store' : Store)
    (reports : List BatchReport) : Prop where
  exhausts : Exhausts (store'.position nodeId) reports log.length
  cursor : store'.cursors.get? nodeId =
    if log = [] then store.cursors.get? nodeId else some store.lastEventId
  replayed : ∃ times, times.length = log.length ∧ Replayed nodeId (log.zip times) store store'
  undated : SameUndated (store'.registriesOf nodeId)
    (replay store.projects.contains (store.registriesOf nodeId) (log.map (·, "")))

theorem Drained.caughtUp {nodeId : Int} {log : List NewEvent} {reports : List BatchReport}
    (h : Drained nodeId log store reports s) : CaughtUp nodeId log store s.store reports := by
  obtain ⟨⟨⟨times, hlength, hreplayed⟩, hstill, hmoved⟩, hnone, hexhausts⟩ := h
  refine ⟨hexhausts, ?_, ⟨times, hlength, hreplayed⟩, ?_⟩
  · split
    · next hlog => exact hstill hlog
    · next hlog =>
      obtain ⟨r, hr, hcursor⟩ := hmoved hlog
      rw [Store.position, hcursor, Option.getD_some, hreplayed.rowsAfter] at hnone
      rw [hcursor, Store.eq_lastEventId hr hnone]
  · rw [hreplayed.own]
    refine SameUndated.replay (fun _ => rfl) ?_
    rw [List.map_fst_zip (Nat.le_of_eq hlength.symm), List.map_map]
    exact (List.map_id log).symm

/-- **Catching up is one replay of the log, however long the batches are.**  A secondary that runs
until a run finds nothing to do comes to an end: after no more runs than there are events behind its
cursor, and one.  The cursor is then at the last event, if there was one, and the registries of the
node are what those events make of them in the order of their numbers; nothing else has changed. -/
theorem catchUp_replays {events : List Event} (hsecondary : n.isSecondary = true)
    (hfaults : s.faults = []) (hnode : s.store.nodes.contains n.id = true)
    (hevents : Store.readEvents s.now (s.store.rowsAfter (s.store.position n.id)) = .ok events)
    (batchSize calls : Nat) (hcalls : events.length < calls) :
    (events.map Event.id).Pairwise (· < ·) ∧
    (∃ reports s', (catchUp n batchSize calls).run s = (.ok reports, s') ∧
      CaughtUp n.id (events.map Event.content) s.store s'.store reports) ∧
    ∀ h r s', (catchUp n batchSize calls).Reaches Site.Waits s h (ofExcept r) s' →
      ∃ reports, r = .ok reports ∧
        CaughtUp n.id (events.map Event.content) s.store s'.store reports := by
  have hsecures := secures_catchUp (F := fun _ _ => True) hsecondary batchSize ⟨rfl, hfaults⟩ hnode
    (says_of_readEvents hevents) (by rwa [List.length_map])
  refine ⟨ids_of_readEvents hevents ▸ s.store.idsAfter_pairwise _, ?_, ?_⟩
  · obtain ⟨reports, s', hrun, hdrained⟩ := hsecures.achieves (throughout_of fun _ _ => trivial)
    exact ⟨reports, s', hrun, hdrained.caughtUp⟩
  · intro h r s' hr
    obtain ⟨s₁, hwaits, hend⟩ := hr.secures (fun _ _ => trivial) hsecures
    rw [Site.waits_store hwaits]
    rcases r with f | reports
    · exact hend.elim
    · exact ⟨reports, rfl, hend.caughtUp⟩

/-- A site whose log has events of a known project and of one that is not there. -/
def mixedSite : Site :=
  .start .epoch
    { Store.empty with
      nodes := (Store.Numbered.empty.insert
        ⟨⟨"http", "primary", 80, ""⟩, true, true, 25, 10, "", ""⟩).insert
        ⟨⟨"http", "secondary", 80, ""⟩, false, true, 25, 10, "", ""⟩
      projects := Store.Numbered.empty.insert
        ⟨1, "p", "g/p", "default", false, none, none, none, ""⟩
      registries := Store.Table.empty.insert (2, 1) (.fresh "")
      events := (((((Store.Numbered.empty.insert ⟨"repository_created", 1, none, ""⟩).insert
        ⟨"repository_updated", 1, some "wiki", ""⟩).insert
        ⟨"repository_renamed", 7, none, ""⟩).insert
        ⟨"repository_deleted", 1, none, ""⟩).insert
        ⟨"repository_deleted", 7, none, ""⟩).insert
        ⟨"repository_updated", 1, some "wiki", ""⟩ } []

/-- The secondary there. -/
def mixedNode : Node :=
  ⟨2, ⟨"http", "secondary", 80, ""⟩, .secondary, true, [], 25, 10, .epoch, .epoch⟩

/-- The events there. -/
def mixedEvents : List Event :=
  [⟨1, .created, 1, none, .epoch⟩, ⟨2, .updated, 1, some .wiki, .epoch⟩,
    ⟨3, .renamed, 7, none, .epoch⟩, ⟨4, .deleted, 1, none, .epoch⟩, ⟨5, .deleted, 7, none, .epoch⟩,
    ⟨6, .updated, 1, some .wiki, .epoch⟩]

/-- Two runs and one that finds nothing to do.  The project that is known has its registry removed
and gets another one; that of the other project is never created. -/
theorem catchUp_replays_mixed : mixedNode.isSecondary = true ∧ mixedSite.faults = [] ∧
    mixedSite.store.nodes.contains mixedNode.id = true ∧
    Store.readEvents mixedSite.now (mixedSite.store.rowsAfter
      (mixedSite.store.position mixedNode.id)) = .ok mixedEvents ∧
    ∃ reports s', (catchUp mixedNode 4 7).run mixedSite = (.ok reports, s') ∧
      CaughtUp 2 (mixedEvents.map Event.content) mixedSite.store s'.store reports := by
  have hread : Store.readEvents mixedSite.now (mixedSite.store.rowsAfter
      (mixedSite.store.position mixedNode.id)) = .ok mixedEvents := by rfl
  exact ⟨rfl, rfl, by decide, hread,
    (catchUp_replays rfl rfl (by decide) hread 4 7 (by decide)).2.1⟩

end EventLog

end GeoReplication
