import GeoReplication.Proofs.EventLog.Account
import GeoReplication.Proofs.EventLog.CaughtUp
import GeoReplication.Proofs.EventLog.Twice

/-!
# Proofs/EventLog/Again — events that are applied twice

    e₄ e₅ e₆ ▸ │ e₄ e₅ e₆ ▸          ▸ the move of the cursor, which fails the first time

A run whose cursor could not be moved is followed by one that takes up the same events.  Up to the
move of its cursor a run has replayed what it consumed and left the cursor alone (`Applying`); what
it consumed is what stands behind the cursor up to the number it moves to (`Came`).  The cursor
being where it was, the second run replays the same log, and that is harmless
(`sameUndated_replay_replay`).
-/

namespace GeoReplication

open GeoReplication.Time Relation

/-! ## Calls that fail -/

namespace Site

variable {s : Site}

/-- Nothing goes wrong but moves of cursors. -/
def OnlyCursorsFail (s : Site) : Prop := ∀ kind ∈ s.faults.map Fault.kind, kind = .advanceCursor

instance (s : Site) : Decidable s.OnlyCursorsFail :=
  inferInstanceAs (Decidable (∀ kind ∈ s.faults.map Fault.kind, kind = .advanceCursor))

theorem kinds_ask (kind : Call.Kind) : ∀ faults : List Fault,
    (Fault.ask kind faults).2.map Fault.kind = faults.map Fault.kind
  | [] => rfl
  | ⟨kind', skip, times, error⟩ :: faults => by
      have ih := kinds_ask kind faults
      simp only [Fault.ask]
      by_cases hkind : kind' = kind
      · rw [if_pos hkind]
        rcases skip with _ | skip
        · rcases times with _ | _ | times
          · rfl
          · exact congrArg (kind' :: ·) ih
          · rfl
        · exact congrArg (kind' :: ·) ih
      · rw [if_neg hkind]
        exact congrArg (kind' :: ·) ih

/-- What fails an operation is a fault of its kind. -/
theorem kind_of_ask {kind : Call.Kind} {e : Error} : ∀ {faults : List Fault},
    (Fault.ask kind faults).1 = some e → kind ∈ faults.map Fault.kind
  | [], h => by cases h
  | ⟨kind', skip, times, error⟩ :: faults, h => by
      simp only [Fault.ask] at h
      by_cases hkind : kind' = kind
      · exact List.mem_cons.mpr (.inl hkind.symm)
      · rw [if_neg hkind] at h
        exact List.mem_cons_of_mem _ (kind_of_ask h)

/-- A call is failed by a fault of its kind, or carried out. -/
theorem Honest.call_cases (hs : s.Honest) (c : Call) :
    (∃ e, e ≠ .notFound ∧ (s.call c).1 = .error (.error e)) ∧ c.kind ∈ s.faults.map Fault.kind ∧
        (s.call c).2.store = s.store ∨
      (s.call c).1 = (c.run s.now s.store).1 ∧ (s.call c).2.store = (c.run s.now s.store).2 := by
  rw [Site.call]
  split
  · next e faults hask =>
    have hask : (Fault.ask c.kind s.faults).1 = some e := by rw [hask]
    exact .inl ⟨⟨e, hs e (error_of_ask hask), rfl⟩, kind_of_ask hask, rfl⟩
  · exact .inr ⟨rfl, rfl⟩

theorem OnlyCursorsFail.call (hs : s.OnlyCursorsFail) (c : Call) :
    (s.call c).2.OnlyCursorsFail := by
  have hkinds : (s.call c).2.faults = (Fault.ask c.kind s.faults).2 := by
    rw [Site.call]
    split <;> next hask => rw [hask]
  rw [OnlyCursorsFail, hkinds, kinds_ask]
  exact hs

end Site

/-! ## Batches and their rows -/

/-- Rows say one thing only. -/
theorem Says.unique {rows : List (Int × EventRow)} {log log' : List NewEvent} (h : Says rows log)
    (h' : Says rows log') : log = log' := by
  induction h generalizing log' with
  | nil => exact (List.forall₂_nil_left_iff.mp h').symm
  | cons hcontent _ ih =>
    obtain ⟨_, _, hcontent', hrest, rfl⟩ := List.forall₂_cons_left_iff.mp h'
    rw [Except.ok.inj (hcontent.symm.trans hcontent'), ih hrest]

/-- What is consumed of a batch is what its first rows say. -/
theorem Says.cut {rows : List (Int × EventRow)} {consumed unread : List Event}
    (h : Says rows ((consumed ++ unread).map Event.content))
    (hids : (consumed ++ unread).map Event.id = rows.map Prod.fst) :
    ∃ first rest, rows = first ++ rest ∧ consumed.map Event.id = first.map Prod.fst ∧
      unread.map Event.id = rest.map Prod.fst ∧ Says first (consumed.map Event.content) := by
  rw [List.map_append] at h hids
  obtain ⟨first, rest, rfl, hfirst, hrest⟩ := List.map_eq_append_iff.mp hids.symm
  refine ⟨first, rest, rfl, hfirst.symm, hrest.symm, ?_⟩
  obtain ⟨log, log', heq, hsays, -⟩ := h.split
  have hlength : (consumed.map Event.content).length = log.length := by
    rw [← hsays.length_eq, List.length_map]
    simpa using (congrArg List.length hfirst).symm
  rwa [(List.append_inj heq hlength).1]

theorem exists_last_row {rows : List (Int × EventRow)} {events : List Event}
    (hids : events.map Event.id = rows.map Prod.fst) {last : Event}
    (hlast : events.getLast? = some last) : ∃ r, rows.getLast? = some r ∧ r.1 = last.id := by
  have hmap := congrArg List.getLast? hids
  rw [List.getLast?_map, List.getLast?_map, hlast] at hmap
  exact Option.map_eq_some_iff.mp hmap.symm

namespace EventLog

open Program

variable {n : Node} {s s' s'' : Site} {h : List Moment} {log : List NewEvent}

/-! ## Runs up to the move of the cursor -/

/-- In the history the cursor of a node was to be moved to an event. -/
def MovesTo (nodeId id : Int) (h : List Moment) : Prop :=
  ∃ s, ⟨s, .store (.advanceCursor nodeId id)⟩ ∈ h

/-- Events were replayed for a node, and its cursor has not been touched yet. -/
structure Applying (nodeId : Int) (log : List NewEvent) (s : Site) (h : List Moment) (s' : Site) :
    Prop where
  honest : s'.Honest
  faults : s.OnlyCursorsFail → s'.OnlyCursorsFail
  still : ∀ id, ¬ MovesTo nodeId id h
  cursors : s'.store.cursors = s.store.cursors
  replayed : ∃ times, times.length = log.length ∧ Replayed nodeId (log.zip times) s.store s'.store

namespace Applying

theorem start (nodeId : Int) (hs : s.Honest) : Applying nodeId [] s [] s :=
  ⟨hs, id, fun _ ⟨_, hm⟩ => absurd hm List.not_mem_nil, rfl, [], rfl, .refl nodeId _⟩

theorem others (ha : Applying n.id log s h s') (hw : ReflTransGen Site.Waits s' s'') :
    Applying n.id log s h s'' := by
  induction hw with
  | refl => exact ha
  | tail _ hw ih =>
    obtain ⟨now, uptime, rfl⟩ := hw
    exact ⟨ih.honest, ih.faults, ih.still, ih.cursors, ih.replayed⟩

theorem nodes (ha : Applying n.id log s h s') : s'.store.nodes = s.store.nodes := by
  obtain ⟨_, -, hreplayed⟩ := ha.replayed
  exact hreplayed.nodes

/-- A call that replays some more events. -/
theorem call (ha : Applying n.id log s h s') {c : Call} (hc : c.kind ≠ .advanceCursor)
    (log' : List NewEvent) (times : List String) (hlength : times.length = log'.length)
    (hcursors : (s'.call c).2.store.cursors = s'.store.cursors)
    (hreplayed : Replayed n.id (log'.zip times) s'.store (s'.call c).2.store) :
    Applying n.id (log ++ log') s (h ++ [⟨s', .store c⟩]) (s'.call c).2 where
  honest := ha.honest.call c
  faults hs := (ha.faults hs).call c
  still id := by
    rintro ⟨site, hm⟩
    rcases List.mem_append.mp hm with hm | hm
    · exact ha.still id ⟨site, hm⟩
    · cases List.mem_singleton.mp hm
      exact hc rfl
  cursors := hcursors.trans ha.cursors
  replayed := by
    obtain ⟨times₀, hlength₀, hfirst⟩ := ha.replayed
    refine ⟨times₀ ++ times, by rw [List.length_append, List.length_append, hlength₀, hlength], ?_⟩
    rw [List.zip_append hlength₀.symm]
    exact hfirst.trans hreplayed

/-- A call that leaves the store as it is. -/
theorem read (ha : Applying n.id log s h s') {c : Call} (hc : c.kind ≠ .advanceCursor)
    (hstore : (s'.call c).2.store = s'.store) :
    Applying n.id log s (h ++ [⟨s', .store c⟩]) (s'.call c).2 := by
  have hcall := ha.call hc [] [] rfl (congrArg Store.cursors hstore) (by
    rw [hstore]
    exact .refl n.id s'.store)
  rwa [List.append_nil] at hcall

end Applying

/-- An application does not fail: the node is registered, and nothing goes wrong but moves of
cursors. -/
structure Smooth (n : Node) (s : Site) : Prop where
  node : s.store.nodes.contains n.id = true
  faults : s.OnlyCursorsFail

/-! ## Single events -/

/-- What comes of taking up an event: it is consumed and was replayed, or it fails and nothing was
changed. -/
def Tried (n : Node) (e : Event) (log : List NewEvent) (s : Site) (r : Except Failure Unit)
    (h : List Moment) (s' : Site) : Prop :=
  (r = .ok () ∨ r = .error (.error .notFound)) ∧ Applying n.id (log ++ [e.content]) s h s' ∨
  (∃ e', e' ≠ .notFound ∧ r = .error (.error e')) ∧ ¬ Smooth n s ∧ Applying n.id log s h s'

/-- A call that a fault fails. -/
theorem Applying.struck (ha : Applying n.id log s h s') (e : Event) {c : Call}
    (hc : c.kind ≠ .advanceCursor) (hfault : c.kind ∈ s'.faults.map Fault.kind)
    (hstore : (s'.call c).2.store = s'.store) {e' : Error} (he' : e' ≠ .notFound) :
    Tried n e log s (.error (.error e')) (h ++ [⟨s', .store c⟩]) (s'.call c).2 :=
  .inr ⟨⟨e', he', rfl⟩, fun hs => hc (ha.faults hs.faults _ hfault), ha.read hc hstore⟩

theorem guards_delete (ha : Applying n.id log s h s') {e : Event} (htype : e.eventType = .deleted) :
    (apply n e).Guards Site.Waits (fun _ _ => True) (Tried n e log s) h s' := by
  rw [apply_deleted htype]
  refine .bind (.call fun s₁ hs₁ => ⟨trivial, ?_⟩)
  have ha := ha.others hs₁
  rcases ha.honest.call_cases (.deleteRegistry n.id e.projectId) with
    ⟨⟨e', he', hreply⟩, hfault, hstore⟩ | ⟨hreply, hstore⟩
  · rw [hreply]
    exact ha.struck e (by rintro ⟨⟩) hfault hstore he'
  · rw [hreply]
    refine .inl ⟨.inl rfl, ha.call (by rintro ⟨⟩) [e.content] [""] rfl ?_ ?_⟩
    · rw [hstore]
      rfl
    · rw [hstore]
      exact .removed htype s₁.now "" s₁.store

theorem guards_request (ha : Applying n.id log s h s') {e : Event} (htype : e.eventType ≠ .deleted)
    (hknown : s'.store.projects.contains e.projectId = true) :
    (Program.call (.requestResync n.id e.projectId (marked e))).Guards Site.Waits (fun _ _ => True)
      (Tried n e log s) h s' := by
  refine Guards.call (c := .requestResync n.id e.projectId (marked e)) fun s₁ hs₁ => ⟨trivial, ?_⟩
  have ha := ha.others hs₁
  rw [← Site.waits_store hs₁] at hknown
  rcases ha.honest.call_cases (.requestResync n.id e.projectId (marked e)) with
    ⟨⟨e', he', hreply⟩, hfault, hstore⟩ | ⟨hreply, hstore⟩
  · rw [hreply]
    exact ha.struck e (by rintro ⟨⟩) hfault hstore he'
  rcases Call.run_requestResync s₁.now n.id e.projectId (marked e) s₁.store with
    ⟨hrun, hunknown⟩ | ⟨store, hrun, hw⟩
  · -- only the node can be missing
    rw [hrun] at hreply hstore
    rw [hreply]
    refine .inr ⟨⟨_, by rintro ⟨⟩, rfl⟩, fun hs => hunknown ?_, ha.read (by rintro ⟨⟩) hstore⟩
    rw [ha.nodes, hs.node, hknown]
    rfl
  · rw [hrun] at hreply hstore
    rw [hreply]
    refine .inl ⟨.inl rfl, ha.call (by rintro ⟨⟩) [e.content] [s₁.now.stored] rfl ?_ ?_⟩
    · rw [hstore, hw.rest]
    · rw [hstore]
      exact .requested htype hknown hw

theorem guards_apply (ha : Applying n.id log s h s') (e : Event) :
    (apply n e).Guards Site.Waits (fun _ _ => True) (Tried n e log s) h s' := by
  by_cases htype : e.eventType = .deleted
  · exact guards_delete ha htype
  rw [apply_of_ne htype]
  refine .bind (.call fun s₁ hs₁ => ⟨trivial, ?_⟩)
  have ha := ha.others hs₁
  rcases ha.honest.call_cases (.getProject e.projectId) with
    ⟨⟨e', he', hreply⟩, hfault, hstore⟩ | ⟨hreply, hstore⟩
  · rw [hreply]
    exact ha.struck e (by rintro ⟨⟩) hfault hstore he'
  rw [hreply]
  change Guards _ _ _ (if (s₁.store.project? s₁.now e.projectId).isNone then _ else _) _ _
  rw [Store.project?]
  cases hproject : s₁.store.projects.get? e.projectId with
  | none =>
    have hunknown : s₁.store.projects.contains e.projectId = false := by
      rw [Store.Numbered.contains, hproject]
      rfl
    refine .inl ⟨.inr rfl, ha.call (by rintro ⟨⟩) [e.content] [""] rfl ?_ ?_⟩
    · rw [hstore]
      rfl
    · rw [hstore]
      exact .skipped htype hunknown ""
  | some row =>
    refine guards_request (ha.read (by rintro ⟨⟩) hstore) htype ?_
    rw [hstore, Store.Numbered.contains]
    change (s₁.store.projects.get? e.projectId).isSome = true
    rw [hproject]
    rfl

/-! ## Batches -/

/-- **A batch**: what is consumed is a beginning of it, which was replayed; all of it if nothing
fails. -/
def Took (n : Node) (events : List Event) (log : List NewEvent) (s : Site)
    (r : Except Failure (List Event)) (h : List Moment) (s' : Site) : Prop :=
  ∃ consumed, r = .ok consumed ∧ consumed <+: events ∧ (Smooth n s → consumed = events) ∧
    Applying n.id (log ++ consumed.map Event.content) s h s'

theorem Took.cons {e : Event} {events : List Event} {r : Except Failure (List Event)}
    (ht : Took n events (log ++ [e.content]) s r h s') :
    Took n (e :: events) log s (r.map (e :: ·)) h s' := by
  obtain ⟨consumed, rfl, hprefix, hall, ha⟩ := ht
  refine ⟨e :: consumed, rfl, (List.prefix_cons_inj _).mpr hprefix, fun hs => ?_, ?_⟩
  · rw [hall hs]
  · rwa [List.append_assoc] at ha

theorem guards_applyAll_replays (ha : Applying n.id log s h s') (events : List Event) :
    (applyAll n events).Guards Site.Waits (fun _ _ => True) (Took n events log s) h s' := by
  induction events generalizing log h s' with
  | nil => exact ⟨[], rfl, List.nil_prefix, fun _ => rfl, by rwa [List.map_nil, List.append_nil]⟩
  | cons e events ih =>
    rw [applyAll]
    refine Guards.bind (Guards.attempt ((guards_apply ha e).imp ?_))
    rintro r h s' (⟨hr, ha⟩ | ⟨⟨e', he', rfl⟩, hs, ha⟩)
    · have hrest : (applyAll n events >>= fun rest => pure (e :: rest)).Guards Site.Waits
          (fun _ _ => True) (Took n (e :: events) log s) h s' := by
        refine Guards.bind ((ih ha).imp ?_)
        intro r h s' ht
        have hcons := ht.cons
        obtain ⟨consumed, rfl, -, -, -⟩ := ht
        exact hcons
      rcases hr with rfl | rfl
      · exact hrest
      · exact hrest
    · have hstop : (pure [] : Program (List Event)).Guards Site.Waits (fun _ _ => True)
          (Took n (e :: events) log s) h s' :=
        ⟨[], rfl, List.nil_prefix, fun h => absurd h hs, by rwa [List.map_nil, List.append_nil]⟩
      -- whatever error it is but the one that is skipped
      rcases e'
      all_goals first
        | exact absurd rfl he'
        | exact hstop

/-! ## The move of the cursor -/

/-- The rows behind the cursor of a node up to a number. -/
def rowsUpTo (store : Store) (nodeId id : Int) : List (Int × EventRow) :=
  (store.rowsAfter (store.position nodeId)).filter (·.1 ≤ id)

/-- A beginning of the rows behind the cursor is what stands there up to its last row. -/
theorem rowsUpTo_eq {store : Store} {nodeId : Int} {rows : List (Int × EventRow)}
    (hrows : rows <+: store.rowsAfter (store.position nodeId)) {r : Int × EventRow}
    (hr : rows.getLast? = some r) : rowsUpTo store nodeId r.1 = rows := by
  obtain ⟨rest, hrest⟩ := hrows
  obtain ⟨before, rfl⟩ := List.getLast?_eq_some_iff.mp hr
  have hsorted := store.idsAfter_pairwise (store.position nodeId)
  rw [Store.idsAfter, ← hrest, List.append_assoc, List.map_append, List.map_append,
    List.map_singleton, List.singleton_append, List.pairwise_append, List.pairwise_cons] at hsorted
  obtain ⟨-, ⟨hafter, -⟩, hbefore⟩ := hsorted
  rw [rowsUpTo, ← hrest, List.filter_append, List.filter_eq_self.mpr, List.filter_eq_nil_iff.mpr,
    List.append_nil]
  · intro r' hr'
    simpa using hafter r'.1 (List.mem_map_of_mem hr')
  · intro r' hr'
    rcases List.mem_append.mp hr' with hr' | hr'
    · exact decide_eq_true (Int.le_of_lt
        (hbefore r'.1 (List.mem_map_of_mem hr') r.1 List.mem_cons_self))
    · rw [List.mem_singleton.mp hr']
      exact decide_eq_true (Int.le_refl _)

/-- **A run that came to the move of its cursor** has replayed what stands up to there behind the
cursor; if it failed, the cursor is where it was. -/
structure Came (n : Node) (s : Site) (id : Int) (r : Except Failure BatchReport) (s' : Site) :
    Prop where
  cursors : (∃ f, r = .error f) → s'.store.cursors = s.store.cursors
  replayed : ∃ log times, Says (rowsUpTo s.store n.id id) log ∧ times.length = log.length ∧
    Replayed n.id (log.zip times) s.store s'.store

/-- The run has come to no move of its cursor, or to one to this event. -/
def Comes (n : Node) (s : Site) (r : Except Failure BatchReport) (h : List Moment) (s' : Site) :
    Prop :=
  ∀ id, MovesTo n.id id h → Came n s id r s'

/-- Where nothing but moves of cursors fails, a batch that can be read is come through. -/
def ComesToEnd (n : Node) (s : Site) (batchSize : Nat) (h : List Moment) : Prop :=
  Smooth n s → n.isSecondary = true → ∀ log,
    Says (s.store.eventRowsAfter (s.store.position n.id) (max batchSize 1)) log →
    ∀ r ∈ (s.store.eventRowsAfter (s.store.position n.id) (max batchSize 1)).getLast?,
      MovesTo n.id r.1 h

theorem Applying.comes (ha : Applying n.id log s h s') (r : Except Failure BatchReport) :
    Comes n s r h s' := fun id hid => absurd hid (ha.still id)

/-- The move of the cursor to the last of the events that were replayed. -/
theorem Applying.move {rows : List (Int × EventRow)} {r : Int × EventRow}
    (ha : Applying n.id log s h s') (hlog : Says rows log)
    (hrows : rows <+: s.store.rowsAfter (s.store.position n.id)) (hr : rows.getLast? = some r)
    (count : Nat) :
    Comes n s ((s'.call (.advanceCursor n.id r.1)).1.map fun cursor => ⟨count, cursor⟩)
      (h ++ [⟨s', .store (.advanceCursor n.id r.1)⟩]) (s'.call (.advanceCursor n.id r.1)).2 := by
  rintro id ⟨site, hm⟩
  have hid : id = r.1 := by
    rcases List.mem_append.mp hm with hm | hm
    · exact absurd ⟨site, hm⟩ (ha.still id)
    · cases List.mem_singleton.mp hm
      rfl
  subst hid
  obtain ⟨times, hlength, hreplayed⟩ := ha.replayed
  rw [← rowsUpTo_eq hrows hr] at hlog
  have hstill : (s'.call (.advanceCursor n.id r.1)).2.store = s'.store →
      ∀ r', Came n s r.1 r' (s'.call (.advanceCursor n.id r.1)).2 := fun hstore r' =>
    ⟨fun _ => (congrArg Store.cursors hstore).trans ha.cursors,
      log, times, hlog, hlength, hstore ▸ hreplayed⟩
  rcases ha.honest.call_cases (.advanceCursor n.id r.1) with ⟨-, -, hstore⟩ | ⟨hreply, hstore⟩
  · exact hstill hstore _
  change _ = (Call.lift (Store.advanceCursor n.id r.1) s'.store).1 at hreply
  change _ = (Call.lift (Store.advanceCursor n.id r.1) s'.store).2 at hstore
  by_cases hknown : (s'.store.cursors.contains n.id || s'.store.nodes.contains n.id) = true
  · rw [Call.lift, Store.run_advanceCursor_of_known r.1 hknown] at hreply hstore
    rw [hreply]
    refine ⟨by rintro ⟨_, ⟨⟩⟩, log, times, hlog, hlength, ?_⟩
    rw [hstore]
    exact hreplayed.moved r.1
  · rw [Call.lift, Store.run_advanceCursor_of_unknown r.1 hknown] at hstore
    exact hstill hstore _

theorem guards_takeUp_moves (ha : Applying n.id [] s h s') {events : List Event}
    {rows : List (Int × EventRow)} (hrows : rows <+: s.store.rowsAfter (s.store.position n.id))
    (hlog : Says rows (events.map Event.content))
    (hids : events.map Event.id = rows.map Prod.fst) (cursor : Int) :
    (takeUp n cursor events).Guards Site.Waits (fun _ _ => True) (fun r h s' =>
      Comes n s r h s' ∧ (Smooth n s → ∀ r ∈ rows.getLast?, MovesTo n.id r.1 h)) h s' := by
  refine Guards.bind ((guards_applyAll_replays ha events).imp ?_)
  rintro _ h s' ⟨consumed, rfl, ⟨unread, rfl⟩, hall, ha⟩
  rw [List.nil_append] at ha
  obtain ⟨first, rest, rfl, hfirst, hrest, hsays⟩ := hlog.cut hids
  have hnone : Smooth n s → rest = [] := by
    intro hs
    have hunread := hall hs
    rw [List.self_eq_append_right] at hunread
    rw [hunread] at hrest
    exact List.map_eq_nil_iff.mp hrest.symm
  simp only [Ends]
  cases hlast : consumed.getLast? with
  | none =>
    refine ⟨ha.comes _, fun hs r hr => ?_⟩
    rw [List.getLast?_eq_none_iff.mp hlast] at hfirst
    rw [hnone hs, List.map_eq_nil_iff.mp hfirst.symm] at hr
    cases hr
  | some last =>
    obtain ⟨r, hr, hid⟩ := exists_last_row hfirst hlast
    refine Guards.bind (Guards.call fun s₁ hs₁ => ⟨trivial, ?_⟩)
    rw [← hid]
    have hmove := (ha.others hs₁).move hsays ((List.prefix_append _ _).trans hrows) hr
      consumed.length
    have hcomes : Smooth n s → ∀ r' ∈ (first ++ rest).getLast?,
        MovesTo n.id r'.1 (h ++ [⟨s₁, .store (.advanceCursor n.id r.1)⟩]) := by
      intro hs r' hr'
      rw [hnone hs, List.append_nil, hr] at hr'
      cases hr'
      exact ⟨s₁, List.mem_concat_self⟩
    cases hreply : (s₁.call (.advanceCursor n.id r.1)).1 with
    | error f =>
      rw [hreply] at hmove
      exact ⟨hmove, hcomes⟩
    | ok cursor =>
      rw [hreply] at hmove
      exact ⟨hmove, hcomes⟩

/-- A question is answered unless something else fails. -/
theorem Applying.ask (ha : Applying n.id log s h s') {c : Call} (hc : c.kind ≠ .advanceCursor)
    (hstill : (c.run s'.now s'.store).2 = s'.store) :
    Applying n.id log s (h ++ [⟨s', .store c⟩]) (s'.call c).2 ∧ (s'.call c).2.store = s'.store ∧
      (Smooth n s → (s'.call c).1 = (c.run s'.now s'.store).1) := by
  rcases ha.honest.call_cases c with ⟨-, hfault, hstore⟩ | ⟨hreply, hstore⟩
  · exact ⟨ha.read hc hstore, hstore, fun hs => absurd (ha.faults hs.faults _ hfault) hc⟩
  · rw [hstill] at hstore
    exact ⟨ha.read hc hstore, hstore, fun _ => hreply⟩

/-- **A run**: where its cursor was to be moved it has come to; and where nothing else fails it
comes to the end of a batch that can be read. -/
theorem guards_runOnce_moves (hs : s.Honest) (batchSize : Nat) :
    (runOnce n batchSize).Guards Site.Waits (fun _ _ => True) (fun r h s' => Comes n s r h s' ∧
      ComesToEnd n s batchSize h) [] s := by
  refine Guards.bind (Guards.call fun s₁ hs₁ => ⟨trivial, ?_⟩)
  have hstore₁ : s₁.store = s.store := Site.waits_store hs₁
  obtain ⟨ha, hstore, hanswer⟩ :=
    ((Applying.start n.id hs).others hs₁).ask (c := .getCursor n.id) (by rintro ⟨⟩) rfl
  cases hreply : (s₁.call (.getCursor n.id)).1 with
  | error f =>
    refine ⟨ha.comes _, fun hsmooth => ?_⟩
    cases hreply.symm.trans (hanswer hsmooth)
  | ok cursor =>
  have hcursor := getCursor_reply hreply
  rw [hstore₁] at hcursor
  change Guards _ _ _ (if !n.isSecondary then _ else _) _ _
  split
  · next hsecondary =>
    refine ⟨ha.comes _, fun _ h => ?_⟩
    rw [h] at hsecondary
    cases hsecondary
  rw [hcursor]
  refine Guards.bind (Guards.call fun s₂ hs₂ => ⟨trivial, ?_⟩)
  have hstore₂ : s₂.store = s.store := (Site.waits_store hs₂).trans (hstore.trans hstore₁)
  obtain ⟨ha, -, hanswer⟩ := (ha.others hs₂).ask
    (c := .listEventsAfter (s.store.position n.id) (max batchSize 1)) (by rintro ⟨⟩)
    (Call.snd_lift _ _)
  rw [hstore₂] at hanswer
  cases hreply : (s₂.call (.listEventsAfter (s.store.position n.id) (max batchSize 1))).1 with
  | error f =>
    refine ⟨ha.comes _, fun hsmooth _ log hlog => ?_⟩
    obtain ⟨events, hread, -, -⟩ := hlog.readEvents s₂.now
    have hok : (Call.lift (Store.listEventsAfter s₂.now (s.store.position n.id) (max batchSize 1))
        s.store).1 = .ok events := by
      rw [Call.lift, Store.listEventsAfter, Action.run_read, hread]
    cases hreply.symm.trans ((hanswer hsmooth).trans hok)
  | ok events =>
    have hread : Store.readEvents s₂.now (s₂.store.eventRowsAfter (s.store.position n.id)
        (max batchSize 1)) = .ok events :=
      Call.run_of_lift (congrArg Prod.fst (Site.run_of_call_ok hreply))
    rw [hstore₂] at hread
    exact (guards_takeUp_moves ha (Store.limited_prefix _ _) (says_of_readEvents hread)
      (ids_of_readEvents hread) _).imp fun r h s' hend => ⟨hend.1, fun hs _ _ _ => hend.2 hs⟩

/-- **What two runs over the same events have done**, of which the first could not move the cursor:
each has replayed what stands behind the cursor up to a number, and to the registries of the node
the second has done no more than write other times. -/
structure Again (n : Node) (id : Int) (s s₁ s₂ : Store) : Prop where
  cursors : s₁.cursors = s.cursors
  runs : ∃ log times times', Says (rowsUpTo s n.id id) log ∧ times.length = log.length ∧
    times'.length = log.length ∧ Replayed n.id (log.zip times) s s₁ ∧
    Replayed n.id (log.zip times') s₁ s₂
  same : SameUndated (s₂.registriesOf n.id) (s₁.registriesOf n.id)

/-- The second of two runs begins where the first has begun, so it replays the same. -/
theorem Came.again {s₁ s₂ s₃ : Site} {id : Int} {f : Failure} {r : Except Failure BatchReport}
    (hfirst : Came n s id (.error f) s₁) (hbetween : s₂.store = s₁.store)
    (hsecond : Came n s₂ id r s₃) : Again n id s.store s₁.store s₃.store := by
  have hcursors := hfirst.cursors ⟨f, rfl⟩
  obtain ⟨log, times, hlog, hlength, hreplayed⟩ := hfirst.replayed
  obtain ⟨log', times', hlog', hlength', hreplayed'⟩ := hsecond.replayed
  have hrows : rowsUpTo s₂.store n.id id = rowsUpTo s.store n.id id := by
    rw [rowsUpTo, rowsUpTo, hbetween, hreplayed.rowsAfter, Store.position, hcursors, Store.position]
  rw [hrows] at hlog'
  obtain rfl := hlog.unique hlog'
  rw [hbetween] at hreplayed'
  refine ⟨hcursors, ⟨log, times, times', hlog, hlength, hlength', hreplayed, hreplayed'⟩, ?_⟩
  have hprojects : s₁.store.projects = s.store.projects := by rw [hreplayed.rest]
  rw [hreplayed'.own, hreplayed.own, hprojects]
  refine sameUndated_replay_replay _ ?_
  rw [List.map_fst_zip (Nat.le_of_eq hlength'.symm), List.map_fst_zip (Nat.le_of_eq hlength.symm)]

/-- What holds of each complete run. -/
theorem moves_of_reaches (hs : s.Honest) {batchSize : Nat} {r : Except Failure BatchReport}
    (hr : (runOnce n batchSize).Reaches Site.Waits s h (ofExcept r) s') :
    Comes n s r h s' ∧ ComesToEnd n s batchSize h := by
  obtain ⟨-, s₁, hw, hend⟩ :=
    hr.guards (guards_runOnce_moves hs batchSize) (fun _ _ _ _ _ => trivial) trivial
  have hsame : s'.store = s₁.store := Site.waits_store hw
  have hpost : Comes n s r h s₁ ∧ ComesToEnd n s batchSize h := by
    cases r with
    | error f => exact hend
    | ok report => exact hend
  refine ⟨fun id hid => ?_, hpost.2⟩
  obtain ⟨hcursors, hreplayed⟩ := hpost.1 id hid
  rw [← hsame] at hcursors hreplayed
  exact ⟨hcursors, hreplayed⟩

/-- Where nothing but moves of cursors fails, a run over a batch that can be read comes to its end.
-/
theorem movesTo_last (hs : s.Honest) (hsmooth : Smooth n s) (hsecondary : n.isSecondary = true)
    {batchSize : Nat} {now : Instant} {events : List Event}
    (hread : Store.readEvents now
      (s.store.eventRowsAfter (s.store.position n.id) (max batchSize 1)) = .ok events)
    {last : Event} (hlast : events.getLast? = some last) {r : Except Failure BatchReport}
    (hr : (runOnce n batchSize).Reaches Site.Waits s h (ofExcept r) s') :
    MovesTo n.id last.id h := by
  obtain ⟨row, hrow, hid⟩ := exists_last_row (ids_of_readEvents hread) hlast
  rw [← hid]
  exact (moves_of_reaches hs hr).2 hsmooth hsecondary _ (says_of_readEvents hread) row hrow

/-- Two runs that come to the move of the cursor to the same event. -/
theorem again_of_moves {s₁ s₂ s₃ : Site} (hs : s.Honest) {batchSize batchSize' : Nat} {id : Int}
    {h₁ h₂ : List Moment} {f : Failure} {r : Except Failure BatchReport}
    (hfirst : (runOnce n batchSize).Reaches Site.Waits s h₁ (.failed f) s₁)
    (hmove₁ : MovesTo n.id id h₁) (hbetween : s₂.store = s₁.store) (hs₂ : s₂.Honest)
    (hsecond : (runOnce n batchSize').Reaches Site.Waits s₂ h₂ (ofExcept r) s₃)
    (hmove₂ : MovesTo n.id id h₂) : Again n id s.store s₁.store s₃.store := by
  have hcame := (moves_of_reaches (r := .error f) hs hfirst).1 id hmove₁
  exact hcame.again hbetween ((moves_of_reaches hs₂ hsecond).1 id hmove₂)

/-- **Applying a batch again does no harm.**  A run that has applied the events up to a number, and
then failed to move the cursor there, is followed by another that comes as far, with nothing
happening in between: then the registries of the node are what they were after the first, but for
times.  It does not matter which events these are, in which order, and whether their projects are
known.  Where nothing but moves of cursors fails, two runs of a registered secondary over a batch
that can be read are such runs, if the first of them fails. -/
theorem replaying_again (n : Node) (s : Site) (hs : s.Honest) :
    (∀ batchSize batchSize' id h₁ h₂ f r s₁ s₂ s₃,
      (runOnce n batchSize).Reaches Site.Waits s h₁ (.failed f) s₁ → MovesTo n.id id h₁ →
      s₂.store = s₁.store → s₂.Honest →
      (runOnce n batchSize').Reaches Site.Waits s₂ h₂ (ofExcept r) s₃ → MovesTo n.id id h₂ →
        Again n id s.store s₁.store s₃.store) ∧
    (Smooth n s → n.isSecondary = true → ∀ batchSize events,
      Store.readEvents s.now (s.store.eventRowsAfter (s.store.position n.id) (max batchSize 1)) =
        .ok events → ∀ last ∈ events.getLast?, ∀ h₁ h₂ f r s₁ s₂ s₃,
      (runOnce n batchSize).Reaches Site.Waits s h₁ (.failed f) s₁ →
      s₂.store = s₁.store → s₂.Honest → s₂.OnlyCursorsFail →
      (runOnce n batchSize).Reaches Site.Waits s₂ h₂ (ofExcept r) s₃ →
        Again n last.id s.store s₁.store s₃.store) := by
  refine ⟨fun _ _ _ _ _ _ _ _ _ _ hfirst hmove₁ hbetween hs₂ hsecond hmove₂ =>
    again_of_moves hs hfirst hmove₁ hbetween hs₂ hsecond hmove₂, ?_⟩
  intro hsmooth hsecondary batchSize events hread last hlast h₁ h₂ f r s₁ s₂ s₃ hfirst hbetween hs₂
    hfaults hsecond
  have hmove₁ := movesTo_last (r := .error f) hs hsmooth hsecondary hread hlast hfirst
  obtain ⟨hcursors, _, _, -, -, hreplayed⟩ :=
    (moves_of_reaches (r := .error f) hs hfirst).1 last.id hmove₁
  -- the second run has the same batch before it
  have hsmooth₂ : Smooth n s₂ := by
    refine ⟨?_, hfaults⟩
    rw [hbetween, hreplayed.nodes]
    exact hsmooth.node
  have hbatch : s₂.store.eventRowsAfter (s₂.store.position n.id) (max batchSize 1) =
      s.store.eventRowsAfter (s.store.position n.id) (max batchSize 1) := by
    rw [Store.eventRowsAfter_eq, Store.eventRowsAfter_eq, hbetween, hreplayed.rowsAfter,
      Store.position, hcursors ⟨f, rfl⟩, Store.position]
  rw [← hbatch] at hread
  exact again_of_moves hs hfirst hmove₁ hbetween hs₂ hsecond
    (movesTo_last hs₂ hsmooth₂ hsecondary hread hlast hsecond)

/-- The site with mixed events, where the first move of a cursor will fail. -/
def stuckSite : Site :=
  { mixedSite with faults := [⟨.advanceCursor, 0, some 1, .conflict "busy"⟩] }

/-- The mixed events are applied, and a second later again.  The registry of the known project is
another afterwards, by its times. -/
theorem replaying_again_mixed : stuckSite.Honest ∧ Smooth mixedNode stuckSite ∧
    ∃ h₁ f s₁ h₂ s₂, (runOnce mixedNode 6).Reaches Site.Waits stuckSite h₁ (.failed f) s₁ ∧
      (runOnce mixedNode 6).Reaches Site.Waits { s₁ with now := ⟨1, 0⟩ } h₂ (.done ⟨6, 6⟩) s₂ ∧
      Again mixedNode 6 stuckSite.store s₁.store s₂.store ∧
      s₂.store.registriesOf 2 1 ≠ s₁.store.registriesOf 2 1 := by
  have hs : stuckSite.Honest := by decide
  have hsmooth : Smooth mixedNode stuckSite := ⟨by decide, by decide⟩
  have halone {s s' : Site} {r : Except Failure BatchReport}
      (hrun : (runOnce mixedNode 6).run s = (r, s')) :
      ∃ h, (runOnce mixedNode 6).Reaches Site.Waits s h (ofExcept r) s' := by
    obtain ⟨h, hr, -⟩ :=
      reaches_alone (F := fun _ _ => True) (throughout_of fun _ _ => trivial) hrun
    exact ⟨h, hr⟩
  obtain ⟨s₁, hs₁⟩ : ∃ s₁, s₁ = ((runOnce mixedNode 6).run stuckSite).2 := ⟨_, rfl⟩
  have hrun₁ : (runOnce mixedNode 6).run stuckSite = (.error (.error (.conflict "busy")), s₁) := by
    rw [hs₁]
    rfl
  have hafter : Site.Honest { s₁ with now := ⟨1, 0⟩ } ∧
      Site.OnlyCursorsFail { s₁ with now := ⟨1, 0⟩ } := by
    rw [hs₁]
    decide +kernel
  obtain ⟨s₂, hrun₂, hrows⟩ : ∃ s₂, (runOnce mixedNode 6).run { s₁ with now := ⟨1, 0⟩ } =
      (.ok ⟨6, 6⟩, s₂) ∧ s₂.store.registriesOf 2 1 ≠ s₁.store.registriesOf 2 1 := by
    rw [hs₁]
    exact ⟨_, rfl, by decide +kernel⟩
  obtain ⟨h₁, hfirst⟩ := halone hrun₁
  obtain ⟨h₂, hsecond⟩ := halone hrun₂
  have hagain := (replaying_again mixedNode stuckSite hs).2 hsmooth rfl 6 mixedEvents rfl
    ⟨6, .updated, 1, some .wiki, .epoch⟩ rfl h₁ h₂ _ (.ok ⟨6, 6⟩) s₁ { s₁ with now := ⟨1, 0⟩ } s₂
    hfirst rfl hafter.1 hafter.2 hsecond
  exact ⟨hs, hsmooth, h₁, _, s₁, h₂, s₂, hfirst, hsecond, hagain, hrows⟩

end EventLog

end GeoReplication
