import GeoReplication.EventLog
import GeoReplication.Health
import GeoReplication.Proofs.Program.Secures
import GeoReplication.Proofs.Site.Turns
import GeoReplication.Proofs.Store.Cursors

/-!
# Proofs/EventLog/WithinLog — no cursor is ever ahead of the log

    others  ── moves, appends, removes ──▸        ── moves, appends, removes ──▸
    check                      reads the cursor                        reads the log

Whatever processes do with the store, in whatever order and with whatever they have read before,
cursors move forward only and stay within the log (`cursors_within_log`).  The health check reads
the cursor first and the log afterwards.  In between the log can only have grown, so the check never
finds the cursor ahead.
-/

namespace GeoReplication

open Relation Program

/-! ## What the check says of a cursor -/

namespace Health

/-- A diagnostic that says a cursor is ahead of the log. -/
def SaysAhead (text : String) : Prop :=
  ∃ cursor last : Int, text = "Event log cursor (" ++ Text.decimal cursor ++
    ") is ahead of the event log (" ++ Text.decimal last ++ ")"

theorem SaysAhead.head? {text : String} (h : SaysAhead text) : text.toList.head? = some 'E' := by
  obtain ⟨cursor, last, rfl⟩ := h
  simp [String.toList_append]

theorem not_saysAhead {text : String} (h : text.toList.head? ≠ some 'E') : ¬ SaysAhead text :=
  fun hsays => h hsays.head?

end Health

/-! ## The two reads -/

namespace Site

variable {s : Site} {nodeId : Int}

theorem cursor_of_call {cursor : Option EventCursor}
    (h : (s.call (.getCursor nodeId)).1 = .ok cursor) :
    (s.call (.getCursor nodeId)).2.store = s.store ∧
      cursor = (s.store.cursors.get? nodeId).map fun eventId => ⟨nodeId, eventId⟩ := by
  have hrun := run_of_call_ok h
  exact ⟨(congrArg Prod.snd hrun).symm, (Except.ok.inj (congrArg Prod.fst hrun)).symm⟩

/-- The log as it is read ends where it ends. -/
theorem last_of_call {last : Option Event} (h : (s.call .lastEvent).1 = .ok last) :
    (last.map (·.id)).getD 0 = s.store.lastEventId := by
  have hrun := congrArg Prod.fst (run_of_call_ok h)
  rw [Call.run, Call.lift, Store.lastEvent, Action.run_read] at hrun
  rw [Store.lastEventId]
  cases hlast : s.store.events.rows.getLast? with
  | none =>
    rw [hlast] at hrun
    cases hrun
    rfl
  | some r =>
    rw [hlast] at hrun
    dsimp only at hrun
    cases hrecord : r.2.record s.now r.1 with
    | error e =>
      rw [hrecord] at hrun
      cases hrun
    | ok e =>
      rw [hrecord] at hrun
      cases hrun
      exact EventRow.record_id hrecord

end Site

namespace Health

variable {s s' : Site}

theorem tied_turn (s s' : Site) (h : s.store.Tied) (hturn : Site.Turn s s') : s'.store.Tied :=
  h.steps (Site.Turn.steps (.single hturn))

theorem tied_call {s : Site} (h : s.store.Tied) (c : Call) : (s.call c).2.store.Tied :=
  h.steps (s.steps_call c)

/-- A cursor that was read, if one was, is within the log. -/
def IsWithin (cursor : Except Error (Option EventCursor)) (s : Site) : Prop :=
  s.store.Tied ∧ ∀ c, cursor = .ok (some c) → c.eventId ≤ s.store.lastEventId

/-- It stays so, whatever becomes of the cursor in the store. -/
theorem isWithin_turn {cursor : Except Error (Option EventCursor)} (s s' : Site)
    (h : IsWithin cursor s) (hturn : Site.Turn s s') : IsWithin cursor s' :=
  ⟨tied_turn s s' h.1 hturn, fun c hc => Int.le_trans (h.2 c hc)
    (Store.lastEventId_mono (Store.events_steps (Site.Turn.steps (.single hturn))))⟩

/-- No diagnostic says that a cursor is ahead. -/
def FindsNoneAhead (found : List String) (s : Site) : Prop :=
  s.store.Tied ∧ ∀ text ∈ found, ¬ SaysAhead text

theorem secures_getCursor (nodeId : Int) (hs : s.store.Tied) :
    (call (.getCursor nodeId)).attempt.Secures Site.Turn (fun _ _ => True)
      (Returns True IsWithin) s := by
  refine (Secures.attempt_call hs tied_turn (.getCursor nodeId)).weaken ?_
  rintro cursor _ ⟨s, hs, rfl, hreply⟩
  refine ⟨tied_call hs _, fun c hc => ?_⟩
  obtain ⟨hstore, hcursor⟩ := Site.cursor_of_call (hreply _ hc)
  obtain ⟨eventId, hget, rfl⟩ := Option.map_eq_some_iff.mp hcursor.symm
  rw [hstore]
  exact hs.within nodeId eventId hget

/-- The log is read after the cursor, and has not become shorter. -/
theorem secures_lastEvent {cursor : Except Error (Option EventCursor)} (hs : IsWithin cursor s) :
    (call .lastEvent).attempt.Secures Site.Turn (fun _ _ => True)
      (Returns True fun last s => s.store.Tied ∧ ∀ c e, cursor = .ok (some c) → last = .ok e →
        c.eventId ≤ (e.map (·.id)).getD 0) s := by
  refine (Secures.attempt_call hs isWithin_turn .lastEvent).weaken ?_
  rintro last _ ⟨s, hs, rfl, hreply⟩
  refine ⟨tied_call hs.1 _, fun c e hc he => ?_⟩
  rw [Site.last_of_call (hreply e he)]
  exact hs.2 c hc

theorem secures_logFailures (n : Node) (hs : s.store.Tied) :
    (logFailures n).Secures Site.Turn (fun _ _ => True) (Returns True FindsNoneAhead) s := by
  refine .bind (secures_getCursor n.id hs) fun cursor s hs => ?_
  refine .bind (secures_lastEvent hs) fun last s ⟨htied, hle⟩ => ?_
  have hunread (e : Error) : ¬ SaysAhead ("Could not read the event log: " ++ e.message) :=
    not_saysAhead (by simp [String.toList_append])
  split
  · dsimp only
    rw [if_neg (Int.not_lt.mpr (hle _ _ rfl rfl))]
    exact ⟨htied, fun _ h => by cases h⟩
  · exact ⟨htied, by simpa using hunread _⟩
  · exact ⟨htied, by simpa using hunread _⟩
  · exact ⟨htied, fun _ h => by cases h⟩

theorem not_saysAhead_nodeFailures (config : Config) (n : Node) :
    ∀ text ∈ nodeFailures config n, ¬ SaysAhead text := by
  intro text htext h
  have hhead := h.head?
  have htexts : text = "Geo database is not configured" ∨ text = "Geo node is disabled" := by
    rw [nodeFailures] at htext
    split at htext
    · rcases List.mem_append.mp htext with h | h <;> split at h <;> simp_all
    · cases htext
  rcases htexts with rfl | rfl <;> exact absurd hhead (by decide)

theorem secures_failures (config : Config) (nodeUrl : String) (hs : s.store.Tied) :
    (failures config nodeUrl).Secures Site.Turn (fun _ _ => True) (Returns True FindsNoneAhead)
      s := by
  have htied {s : Site} (hs : s.store.Tied) (c : Call) :
      (call c).attempt.Secures Site.Turn (fun _ _ => True)
        (Returns True fun _ s => s.store.Tied) s := by
    refine (Secures.attempt_call hs tied_turn c).weaken ?_
    rintro _ _ ⟨s, hs, rfl, -⟩
    exact tied_call hs c
  have hone {s : Site} (hs : s.store.Tied) {text : String}
      (htext : text.toList.head? ≠ some 'E') : FindsNoneAhead [text] s :=
    ⟨hs, by simpa using not_saysAhead htext⟩
  refine .bind (htied hs .ping) fun reachable s hs => ?_
  split
  · exact hone hs (by simp [String.toList_append])
  · refine .bind (htied hs (.findNodeByUrl nodeUrl)) fun node s hs => ?_
    split
    · exact hone hs (by simp [String.toList_append])
    · exact hone hs (by simp [String.toList_append])
    · refine .bind (secures_logFailures _ hs) fun found s ⟨hs, hfound⟩ => ?_
      exact ⟨hs, List.forall_mem_append.mpr ⟨not_saysAhead_nodeFailures config _, hfound⟩⟩

/-- The health check finds no cursor ahead, whatever goes on meanwhile. -/
theorem secures_process (config : Config) (nodeUrl : String) (checks : List String)
    (hs : s.store.Tied) :
    (process config nodeUrl checks).Secures Site.Turn (fun _ _ => True)
      (Returns True FindsNoneAhead) s := by
  induction checks generalizing s with
  | nil => exact ⟨hs, fun _ h => by cases h⟩
  | cons check checks ih =>
    rw [process]
    split
    · refine .bind (secures_failures config nodeUrl hs) fun found s ⟨hs, hfound⟩ => ?_
      refine .bind (ih hs) fun more s ⟨hs, hmore⟩ => ?_
      exact ⟨hs, List.forall_mem_append.mpr ⟨hfound, hmore⟩⟩
    · trivial

end Health

/-- **No cursor is ever ahead of the log.**  Whatever anyone does: the cursor of a node moves
forward only, as long as the node is there; no cursor is beyond the last event; and a health check
that is under way while others act never reports one. -/
theorem cursors_within_log {s s' : Site} (hs : s.store.Reached)
    (hrun : ReflTransGen Site.Turn s s') :
    (∀ nodeId cursor, s.store.cursors.get? nodeId = some cursor →
      s'.store.nodes.contains nodeId = true →
        ∃ later, s'.store.cursors.get? nodeId = some later ∧ cursor ≤ later) ∧
    (∀ nodeId cursor, s'.store.cursors.get? nodeId = some cursor → cursor ≤ s'.store.lastEventId) ∧
    ∀ config nodeUrl checks h found s'',
      (Health.process config nodeUrl checks).Reaches Site.Turn s' h (.done found) s'' →
        ∀ text ∈ found, ¬ Health.SaysAhead text := by
  have hsteps := Site.Turn.steps hrun
  have htied := hs.tied.steps hsteps
  refine ⟨fun nodeId cursor hcursor hthere => hs.tied.cursor_le hsteps hcursor hthere,
    htied.within, fun config nodeUrl checks h found s'' hcheck => ?_⟩
  obtain ⟨s₁, -, hfound⟩ := hcheck.secures (fun _ _ => trivial)
    (Health.secures_process config nodeUrl checks htied)
  exact hfound.2

/-- A disabled secondary that has come to the first of three events. -/
def lateStore : Store :=
  ((Call.advanceCursor 1 1).run .epoch ((Call.appendEvent ⟨.deleted, 7, none⟩).run .epoch
    ((Call.appendEvent ⟨.deleted, 7, none⟩).run .epoch
      ((Call.appendEvent ⟨.deleted, 7, none⟩).run .epoch
        ((Call.createNode ⟨⟨"http", "secondary", 80, ""⟩, .secondary, false, [], 1, 1⟩).run .epoch
          .empty).2).2).2).2).2

/-- The secondary there. -/
def lateNode : Node :=
  ⟨1, ⟨"http", "secondary", 80, ""⟩, .secondary, false, [], 1, 1, .epoch, .epoch⟩

/-- A run there that has read the cursor and the event after it. -/
def overtakenRun : List Moment × Program EventLog.BatchReport × Site :=
  (EventLog.runOnce lateNode 1).ahead 2 (.start .epoch lateStore [])

/-- Another run has come to the end of the log before the first moves the cursor. -/
def overtakenSite : Site :=
  (overtakenRun.2.1.ahead 9 ((EventLog.runOnce lateNode 5).ahead 9 overtakenRun.2.2).2.2).2.2

/-- The overtaken run does not move the cursor back; and a check finds no fault with the cursor
while it moves on. -/
theorem cursors_within_log_overtaken : lateStore.Reached ∧
    ReflTransGen Site.Turn (.start .epoch lateStore []) overtakenSite ∧
    lateStore.cursors.get? 1 = some 1 ∧
    (∃ later, overtakenSite.store.cursors.get? 1 = some later ∧ 1 ≤ later) ∧
    (3 : Int) ≤ overtakenSite.store.lastEventId ∧
    ∃ h s, (Health.process .standard "http://secondary" ["geo"]).Reaches Site.Turn overtakenSite h
        (.done ["Geo node is disabled"]) s ∧ ¬ Health.SaysAhead "Geo node is disabled" := by
  have hreached : lateStore.Reached :=
    .call _ _ (.call _ _ (.call _ _ (.call _ _ (.call _ _ .empty))))
  have hrun : ReflTransGen Site.Turn (.start .epoch lateStore []) overtakenSite :=
    ((turns_ahead (EventLog.runOnce lateNode 1) 2 (.start .epoch lateStore [])).trans
      (turns_ahead (EventLog.runOnce lateNode 5) 9 overtakenRun.2.2)).trans
        (turns_ahead overtakenRun.2.1 9 _)
  obtain ⟨hforward, hwithin, hcheck⟩ := cursors_within_log hreached hrun
  have hcursor : lateStore.cursors.get? 1 = some 1 := by decide +kernel
  refine ⟨hreached, hrun, hcursor, hforward 1 1 hcursor (by decide +kernel),
    hwithin 1 3 (by decide +kernel), ?_⟩
  let read := (Health.process .standard "http://secondary" ["geo"]).ahead 3 overtakenSite
  let appended := (read.2.2.perform (.store (.appendEvent ⟨.deleted, 7, none⟩))).2
  let moved := (appended.perform (.store (.advanceCursor 1 9))).2
  have hmoved : (Health.process .standard "http://secondary" ["geo"]).Reaches Site.Turn
      overtakenSite ([] ++ read.1) read.2.1 moved :=
    ((Reaches.start.ahead 3).others (.acts _ _)).others (.acts _ _)
  have hany : read.2.1.Throughout (fun _ _ => True) moved := by decide +kernel
  have hfound : (read.2.1.run moved).1.toOption = some ["Geo node is disabled"] := by decide +kernel
  rcases hend : read.2.1.run moved with ⟨e | found, s⟩
  · rw [hend] at hfound
    cases hfound
  · rw [hend] at hfound
    cases hfound
    obtain ⟨h, hreaches, -⟩ := hmoved.alone (fun _ _ => trivial) hany hend
    exact ⟨h, s, hreaches, hcheck _ _ _ _ _ _ hreaches _ (List.mem_singleton_self _)⟩

end GeoReplication
