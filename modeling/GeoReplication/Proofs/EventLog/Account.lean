import GeoReplication.Proofs.EventLog.Readings

/-!
# Proofs/EventLog/Account — the account of one run

    reads │ e₄ applied │ e₅ skipped │ e₆ failed │ cursor ▸ e₅

A run asks for its cursor and for the events behind it, takes them up one after another, and moves
the cursor over those it has consumed.  `Account` cuts the history of a run accordingly, and `Ran`
says what holds of it when the run has ended: nothing up to the cursor is left out (`Covered`), the
events were taken in the order of the log from the cursor on, and an event that failed is still
ahead of the cursor.
-/

namespace GeoReplication.EventLog

open GeoReplication.Time Program Relation

variable {n : Node} {s s' s'' : Site} {h h' : List Moment}

/-! ## Up to the cursor -/

/-- The event of a row was consumed in the history. -/
def ConsumedIn (n : Node) (h : List Moment) (r : Int × EventRow) : Prop :=
  ∃ t : Trial, (∃ now, r.2.record now r.1 = .ok t.event) ∧ t.moments <:+: h ∧ t.Consumed n

theorem ConsumedIn.mono {r : Int × EventRow} (hsub : h <:+: h') (hr : ConsumedIn n h r) :
    ConsumedIn n h' r := by
  obtain ⟨t, hrecord, hmoments, ht⟩ := hr
  exact ⟨t, hrecord, hmoments.trans hsub, ht⟩

/-- **Nothing is left out**: whatever the cursor has come past since `s` was consumed. -/
structure Covered (n : Node) (s : Site) (h : List Moment) (s' : Site) : Prop where
  honest : s'.Honest
  log : s.store.events.GrowsTo s'.store.events
  consumed : ∀ r ∈ s'.store.events.rows, s.store.position n.id < r.1 →
    r.1 ≤ s'.store.position n.id → ConsumedIn n h r
  /-- a cursor that has moved points into the log -/
  moved : s'.store.position n.id = s.store.position n.id ∨
    s.store.position n.id ≤ s'.store.position n.id ∧
      s'.store.position n.id ≤ s'.store.events.last

namespace Covered

theorem of_still (hs : Still n.id s s') : Covered n s h s' :=
  ⟨hs.honest, hs.log, fun _ _ hlt hle => absurd hle (hs.position ▸ Int.not_le.mpr hlt),
    .inl hs.position⟩

/-- A row below a cursor that has moved was there when it moved. -/
theorem mem_rows (hc : Covered n s h s') (hs : s'.store.events.GrowsTo s''.store.events)
    {r : Int × EventRow} (hr : r ∈ s''.store.events.rows) (hlt : s.store.position n.id < r.1)
    (hle : r.1 ≤ s'.store.position n.id) : r ∈ s'.store.events.rows := by
  rcases hc.moved with hmoved | ⟨-, hlast⟩
  · exact absurd hle (hmoved ▸ Int.not_le.mpr hlt)
  · exact hs.mem_of_le hr (Int.le_trans hle hlast)

/-- One run after another. -/
theorem trans (hc : Covered n s h s') (hc' : Covered n s' h' s'') :
    Covered n s (h ++ h') s'' := by
  refine ⟨hc'.honest, hc.log.trans hc'.log, fun r hr hlt hle => ?_, ?_⟩
  · by_cases hpast : r.1 ≤ s'.store.position n.id
    · exact (hc.consumed r (hc.mem_rows hc'.log hr hlt hpast) hlt hpast).mono
        List.infix_append_left
    · exact (hc'.consumed r hr (Int.not_le.mp hpast) hle).mono List.infix_append_right
  · have hlast := hc'.log.last
    rcases hc.moved, hc'.moved with ⟨hm | ⟨hm, hm'⟩, hn | ⟨hn, hn'⟩⟩
    · exact .inl (hn.trans hm)
    · exact .inr ⟨hm ▸ hn, hn'⟩
    · exact .inr ⟨hn ▸ hm, by omega⟩
    · exact .inr ⟨Int.le_trans hm hn, hn'⟩

theorem still (hc : Covered n s h s') (hs : Still n.id s' s'') : Covered n s h s'' := by
  have htrans := hc.trans (of_still (h := []) hs)
  rwa [List.append_nil] at htrans

end Covered

/-! ## While the cursor stays -/

/-- What has been read is what stands behind the cursor, and some of it if there is any. -/
def Reading (n : Node) (s : Site) (h : List Moment) (s' : Site) : Prop :=
  ∀ events, Fetched h events → ReadAfter s'.store (s.store.position n.id) events ∧
    (s.store.rowsAfter (s.store.position n.id) ≠ [] → events ≠ [])

theorem Reading.grows (hr : Reading n s h s') (hs : s'.store.events.GrowsTo s''.store.events) :
    Reading n s h s'' := fun events he => ⟨(hr events he).1.grows hs, (hr events he).2⟩

theorem Reading.append (hr : Reading n s h s') {m : Moment}
    (hm : ∀ afterId limit, m.effect ≠ .store (.listEventsAfter afterId limit)) :
    Reading n s (h ++ [m]) s' := fun events he => hr events (he.of_append hm)

/-- A run that started at `s` has not moved its cursor yet. -/
structure Underway (n : Node) (s : Site) (h : List Moment) (s' : Site) : Prop where
  still : Still n.id s s'
  honest : ∀ m ∈ h, m.site.Honest
  reading : Reading n s h s'

namespace Underway

theorem start (hs : s.Honest) : Underway n s [] s :=
  ⟨.refl hs, fun _ hm => absurd hm List.not_mem_nil,
    fun _ ⟨_, _, _, hmem, _⟩ => absurd hmem List.not_mem_nil⟩

theorem goOn (hu : Underway n s h s') (hs : Still n.id s' s'') : Underway n s h s'' :=
  ⟨hu.still.trans hs, hu.honest, hu.reading.grows hs.log⟩

theorem others (hu : Underway n s h s') (hs : ReflTransGen (Meanwhile n.id) s' s'') :
    Underway n s h s'' := hu.goOn (.others hu.still.honest hs)

theorem honest_append (hu : Underway n s h s') {e : Effect} :
    ∀ m ∈ h ++ [⟨s', e⟩], m.site.Honest := by
  intro m hm
  rcases List.mem_append.mp hm with hm | hm
  · exact hu.honest m hm
  · rw [List.mem_singleton.mp hm]
    exact hu.still.honest

/-- An effect that leaves log and cursor alone and is not the question for events. -/
theorem act (hu : Underway n s h s') {e : Effect} (hs : Still n.id s' (Moment.after ⟨s', e⟩))
    (hask : ∀ afterId limit, e ≠ .store (.listEventsAfter afterId limit)) :
    Underway n s (h ++ [⟨s', e⟩]) (Moment.after ⟨s', e⟩) :=
  ⟨hu.still.trans hs, hu.honest_append, (hu.reading.grows hs.log).append hask⟩

theorem call (hu : Underway n s h s') {c : Call} (hc : c.LeavesLog)
    (hask : ∀ afterId limit, c ≠ .listEventsAfter afterId limit) :
    Underway n s (h ++ [⟨s', .store c⟩]) (s'.call c).2 :=
  hu.act (.call hu.still.honest hc) fun afterId limit heq =>
    hask afterId limit (Effect.store.inj heq)

/-- The question for events. -/
theorem ask (hu : Underway n s h s') {limit : Nat} (hlimit : 0 < limit) :
    Underway n s (h ++ [⟨s', .store (.listEventsAfter (s.store.position n.id) limit)⟩])
      (s'.call (.listEventsAfter (s.store.position n.id) limit)).2 := by
  have hs : Still n.id s' (s'.call (.listEventsAfter (s.store.position n.id) limit)).2 :=
    .call hu.still.honest (Call.leavesLog_of_reads rfl)
  refine ⟨hu.still.trans hs, hu.honest_append, fun events he => ?_⟩
  obtain ⟨s₁, afterId, limit', hmem, hreply⟩ := he
  rcases List.mem_append.mp hmem with hmem | hmem
  · exact hu.reading.grows hs.log events ⟨s₁, afterId, limit', hmem, hreply⟩
  · obtain ⟨rfl, heffect⟩ := Moment.mk.inj (List.mem_singleton.mp hmem)
    obtain ⟨rfl, rfl⟩ := Call.listEventsAfter.inj (Effect.store.inj heffect)
    obtain ⟨hread, hsome⟩ := readAfter_of_call hreply
    refine ⟨hread.grows hs.log, fun hrows => hsome hlimit fun hnil => hrows ?_⟩
    exact List.prefix_nil.mp (hnil ▸ Store.rowsAfter_grows hu.still.log _)

theorem covered (hu : Underway n s h s') : Covered n s h s' := .of_still hu.still

end Underway

/-! ## The whole run -/

/-- Asking is all that the history has been. -/
def OnlyAsked (n : Node) (h : List Moment) : Prop :=
  ∀ m ∈ h, m.effect = .store (.getCursor n.id) ∨
    ∃ afterId limit, m.effect = .store (.listEventsAfter afterId limit)

/-- The history of a run, cut by what its effects were for. -/
structure Account where
  reads : List Moment
  tally : Tally
  writes : List Moment

namespace Account

/-- `a` is an account of the history: questions, the trials of a beginning of what was fetched, and
moves of the cursor. -/
structure Describes (n : Node) (h : List Moment) (a : Account) : Prop where
  history : h = a.reads ++ a.tally.moments ++ a.writes
  reads : OnlyAsked n a.reads
  writes : ∀ m ∈ a.writes, ∃ id, m.effect = .store (.advanceCursor n.id id)
  fair : ∃ events, (a.tally.trials = [] ∨ Fetched a.reads events) ∧ a.tally.Fair n events

/-- The cursor is moved in the end. -/
theorem Describes.write {a : Account} (ha : a.Describes n h) (hwrites : a.writes = []) (s : Site)
    (id : Int) : Describes n (h ++ [⟨s, .store (.advanceCursor n.id id)⟩])
      { a with writes := [⟨s, .store (.advanceCursor n.id id)⟩] } := by
  refine ⟨?_, ha.reads, ?_, ha.fair⟩
  · rw [ha.history, hwrites, List.append_nil]
  · intro m hm
    rw [List.mem_singleton.mp hm]
    exact ⟨id, rfl⟩

/-- The move of the cursor failed. -/
def WriteFailed (n : Node) (a : Account) : Prop :=
  ∃ s id f, ⟨s, .store (.advanceCursor n.id id)⟩ ∈ a.writes ∧
    (s.call (.advanceCursor n.id id)).1 = .error f

end Account

/-- The first event behind the cursor has the number `id`. -/
def Ahead (n : Node) (s : Site) (id : Int) : Prop :=
  [id] <+: s.store.idsAfter (s.store.position n.id)

/-- **What holds when a run has ended** that started at `s`. -/
structure Ran (n : Node) (s : Site) (h : List Moment) (s' : Site) (a : Account) : Prop where
  covered : Covered n s h s'
  reading : Reading n s h s'
  describes : a.Describes n h
  inOrder : a.tally.events.map Event.id <+: s'.store.idsAfter (s.store.position n.id)
  stopped : ∀ t ∈ a.tally.stopped, s'.store.position n.id < t.event.id ∧
    (Ahead n s' t.event.id ∨
      a.WriteFailed n ∧ s'.store.position n.id = s.store.position n.id ∧
        ∃ first ∈ a.tally.trials.head?, Ahead n s' first.event.id)

namespace Ran

variable {a : Account}

theorem still (hr : Ran n s h s' a) (hs : Still n.id s' s'') : Ran n s h s'' a := by
  have hahead : ∀ {id}, Ahead n s' id → Ahead n s'' id := fun hid => by
    rw [Ahead, hs.position]
    exact hid.trans (Store.idsAfter_grows hs.log _)
  refine ⟨hr.covered.still hs, hr.reading.grows hs.log, hr.describes,
    hr.inOrder.trans (Store.idsAfter_grows hs.log _), fun t ht => ?_⟩
  obtain ⟨hlt, hnext⟩ := hr.stopped t ht
  rw [hs.position]
  refine ⟨hlt, hnext.imp hahead ?_⟩
  rintro ⟨hfailed, hposition, first, hfirst, hid⟩
  exact ⟨hfailed, hposition, first, hfirst, hahead hid⟩

end Ran

/-- The trials of a run under way are those of the first events behind its cursor. -/
theorem Underway.inOrder (hu : Underway n s h s') {a : Account} (ha : a.Describes n h) :
    a.tally.events.map Event.id <+: s'.store.idsAfter (s.store.position n.id) := by
  obtain ⟨events, hnone | hfetched, hfair⟩ := ha.fair
  · rw [Tally.events, hnone]
    exact List.nil_prefix
  · have hread := (hu.reading events (hfetched.mono ?_)).1
    · exact (hfair.inOrder.map Event.id).trans hread.ids
    · rw [ha.history, List.append_assoc]
      exact List.subset_append_left _ _

/-- What holds at every moment of a run that started at `s`. -/
def Safe (n : Node) (s : Site) (h : List Moment) (s' : Site) : Prop :=
  Covered n s h s' ∧ Reading n s h s'

/-- The part of a run that comes after the questions. -/
def takeUp (n : Node) (cursor : Int) (events : List Event) : Program BatchReport := do
  let consumed ← applyAll n events
  match consumed.getLast? with
  | none => return ⟨0, cursor⟩
  | some last => return ⟨consumed.length, ← Program.call (.advanceCursor n.id last.id)⟩

/-- The answer to the question for the cursor. -/
theorem getCursor_reply {nodeId : Int} {cursor : Option EventCursor}
    (hreply : (s.call (.getCursor nodeId)).1 = .ok cursor) :
    (cursor.map (·.eventId)).getD 0 = s.store.position nodeId := by
  have hcursor := Except.ok.inj (congrArg Prod.fst (Site.run_of_call_ok hreply))
  rw [← hcursor, Store.position, Option.map_map]
  rcases s.store.cursors.get? nodeId with _ | eventId <;> rfl

end GeoReplication.EventLog
