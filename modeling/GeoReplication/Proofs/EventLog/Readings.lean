import GeoReplication.Proofs.EventLog.Trials

/-!
# Proofs/EventLog/Readings — a log that grows under its readers

    cursor ▾                              cursor ▾
    ▪ ▪ ▪ ▪ │ e₄ e₅ e₆          ──▸       ▪ ▪ ▪ ▪ │ e₄ e₅ e₆ e₇ e₈

While a run of a secondary is under way the primary appends events, and projects, nodes and
registries may change; only the run itself moves the cursor of the secondary (`Meanwhile`).  So what
a run has read stays the beginning of what stands behind its cursor (`Fetched`, `ReadAfter`).
-/

namespace GeoReplication.EventLog

open GeoReplication.Time Program Relation

/-! ## What others do -/

/-- What happens besides the runs of a node: events are appended, by whoever takes itself for the
primary, and anything that leaves the log and the cursor of the node alone; faults come and go. -/
inductive Meanwhile (nodeId : Int) : Site → Site → Prop
  | append (current : Node) (e : NewEvent) (s : Site) :
    Meanwhile nodeId s ((append current e).run s).2
  | beside {s s' : Site} : s'.store.events = s.store.events →
    s'.store.cursors.get? nodeId = s.store.cursors.get? nodeId → s'.Honest → Meanwhile nodeId s s'

/-- From one site to another the log only grew, and the cursor of the node stayed where it was. -/
structure Still (nodeId : Int) (s s' : Site) : Prop where
  honest : s'.Honest
  log : s.store.events.GrowsTo s'.store.events
  cursor : s'.store.cursors.get? nodeId = s.store.cursors.get? nodeId

namespace Still

variable {nodeId : Int} {s s' s'' : Site}

theorem refl (h : s.Honest) : Still nodeId s s := ⟨h, .refl _, rfl⟩

theorem trans (h : Still nodeId s s') (h' : Still nodeId s' s'') : Still nodeId s s'' :=
  ⟨h'.honest, h.log.trans h'.log, h'.cursor.trans h.cursor⟩

theorem position (h : Still nodeId s s') : s'.store.position nodeId = s.store.position nodeId :=
  congrArg (·.getD 0) h.cursor

/-- An operation that touches neither. -/
theorem call (hs : s.Honest) {c : Call} (hc : c.LeavesLog) : Still nodeId s (s.call c).2 := by
  rcases s.store_call c with hstore | hstore
  · exact ⟨hs.call c, hstore ▸ .refl _, by rw [hstore]⟩
  · obtain ⟨hevents, hcursors⟩ := hc s.now s.store
    exact ⟨hs.call c, by rw [hstore, hevents]; exact .refl _, by rw [hstore, hcursors]⟩

/-- A new event. -/
theorem appendEvent (hs : s.Honest) (e : NewEvent) :
    Still nodeId s (s.call (.appendEvent e)).2 := by
  rcases s.store_call (.appendEvent e) with hstore | hstore
  · exact ⟨hs.call _, hstore ▸ .refl _, by rw [hstore]⟩
  · exact ⟨hs.call _, by rw [hstore]; exact .insert _ _, by rw [hstore]; rfl⟩

theorem meanwhile (hs : s.Honest) (h : Meanwhile nodeId s s') : Still nodeId s s' := by
  rcases h with ⟨current, e⟩ | ⟨hevents, hcursor, hs'⟩
  · rw [append]
    split
    · rw [run_call]
      exact .appendEvent hs e
    · exact .refl hs
  · exact ⟨hs', hevents ▸ .refl _, hcursor⟩

theorem others (hs : s.Honest) (h : ReflTransGen (Meanwhile nodeId) s s') :
    Still nodeId s s' := by
  induction h with
  | refl => exact .refl hs
  | tail _ ho ih => exact ih.trans (.meanwhile ih.honest ho)

end Still

/-! ## What a run has read -/

/-- In the history the store has answered with these events. -/
def Fetched (h : List Moment) (events : List Event) : Prop :=
  ∃ s afterId limit, ⟨s, .store (.listEventsAfter afterId limit)⟩ ∈ h ∧
    (s.call (.listEventsAfter afterId limit)).1 = .ok events

theorem Fetched.mono {h h' : List Moment} {events : List Event} (hsub : h ⊆ h')
    (hf : Fetched h events) : Fetched h' events := by
  obtain ⟨s, afterId, limit, hmem, hreply⟩ := hf
  exact ⟨s, afterId, limit, hsub hmem, hreply⟩

/-- Only the question for events fetches any. -/
theorem Fetched.of_append {h : List Moment} {m : Moment} {events : List Event}
    (hf : Fetched (h ++ [m]) events)
    (hm : ∀ afterId limit, m.effect ≠ .store (.listEventsAfter afterId limit)) :
    Fetched h events := by
  obtain ⟨s, afterId, limit, hmem, hreply⟩ := hf
  rcases List.mem_append.mp hmem with hmem | hmem
  · exact ⟨s, afterId, limit, hmem, hreply⟩
  · exact absurd (congrArg Moment.effect (List.mem_singleton.mp hmem)).symm (hm afterId limit)

/-- The events are the first rows of the log after a number. -/
def ReadAfter (s : Store) (afterId : Int) (events : List Event) : Prop :=
  ∃ now rows, rows <+: s.rowsAfter afterId ∧
    List.Forall₂ (fun r e => r.2.record now r.1 = .ok e) rows events

namespace ReadAfter

variable {s s' : Store} {afterId : Int} {events : List Event}

theorem grows (h : ReadAfter s afterId events) (hs : s.events.GrowsTo s'.events) :
    ReadAfter s' afterId events := by
  obtain ⟨now, rows, hrows, hread⟩ := h
  exact ⟨now, rows, hrows.trans (Store.rowsAfter_grows hs afterId), hread⟩

/-- Events are taken in the order of the log, without a gap. -/
theorem ids (h : ReadAfter s afterId events) : events.map Event.id <+: s.idsAfter afterId := by
  obtain ⟨now, rows, hrows, hread⟩ := h
  have hids : rows.map Prod.fst = events.map Event.id := by
    clear hrows
    induction hread with
    | nil => rfl
    | cons hr _ ih => rw [List.map_cons, List.map_cons, ih, EventRow.record_id hr]
  rw [← hids]
  exact hrows.map Prod.fst

/-- A row of the log that has the number of one of the events is the row of that event. -/
theorem record (h : ReadAfter s afterId events) {e : Event} (he : e ∈ events)
    {r : Int × EventRow} (hr : r ∈ s.events.rows) (hid : e.id = r.1) :
    ∃ now, r.2.record now r.1 = .ok e := by
  obtain ⟨now, rows, hrows, hread⟩ := h
  obtain ⟨r', hr', hrecord⟩ : ∃ r' ∈ rows, r'.2.record now r'.1 = .ok e := by
    clear hrows
    induction hread with
    | nil => exact absurd he List.not_mem_nil
    | cons hr _ ih =>
      rcases List.mem_cons.mp he with rfl | he
      · exact ⟨_, List.mem_cons_self, hr⟩
      · obtain ⟨r', hr', hrecord⟩ := ih he
        exact ⟨r', List.mem_cons_of_mem _ hr', hrecord⟩
  have hmem : (r'.1, r'.2) ∈ s.events.rows := (Store.mem_rowsAfter.mp (hrows.subset hr')).1
  rw [← EventRow.record_id hrecord, hid] at hmem
  have hrow : r'.2 = r.2 := Option.some.inj
    ((Store.Numbered.get?_eq_some_iff.mpr hmem).symm.trans
      (Store.Numbered.get?_eq_some_iff.mpr hr))
  have hnumber : r'.1 = r.1 := (EventRow.record_id hrecord).symm.trans hid
  exact ⟨now, by rw [← hrow, ← hnumber]; exact hrecord⟩

end ReadAfter

/-- What is answered to the question for events: some of them, if there are any. -/
theorem readAfter_of_call {s : Site} {afterId : Int} {limit : Nat} {events : List Event}
    (h : (s.call (.listEventsAfter afterId limit)).1 = .ok events) :
    ReadAfter s.store afterId events ∧
      (0 < limit → s.store.rowsAfter afterId ≠ [] → events ≠ []) := by
  have hread : Store.readEvents s.now (s.store.eventRowsAfter afterId limit) = .ok events :=
    Call.run_of_lift (congrArg Prod.fst (Site.run_of_call_ok h))
  rw [Store.eventRowsAfter_eq] at hread
  have hrows := Store.readEvents_ok hread
  refine ⟨⟨s.now, _, Store.limited_prefix _ _, hrows⟩, fun hlimit hsome => ?_⟩
  rintro rfl
  exact Store.limited_ne_nil hlimit hsome (List.forall₂_nil_right_iff.mp hrows)

end GeoReplication.EventLog
