import GeoReplication.Proofs.Store.Places
import Mathlib.Data.List.Forall2

/-!
# Proofs/Store/Events — the log grows, and cursors follow it

Rows of the log keep their places and their numbers, so what stood behind a cursor once is the
beginning of what stands there later.  A cursor that is moved to a number of the log stands there,
unless it had come further.
-/

namespace GeoReplication

open GeoReplication.Time

namespace Store

/-! ## Numbered tables that only get rows -/

namespace Numbered

variable {α : Type} {t t' t'' : Numbered α}

/-- Between the two moments the table has only got rows, under numbers not handed out before. -/
structure GrowsTo (t t' : Numbered α) : Prop where
  rows : ∃ more, t'.rows = t.rows ++ more ∧ ∀ r ∈ more, (t.last : Int) < r.1
  last : t.last ≤ t'.last

namespace GrowsTo

theorem refl (t : Numbered α) : t.GrowsTo t := ⟨⟨[], by simp⟩, Nat.le_refl _⟩

theorem trans (h : t.GrowsTo t') (h' : t'.GrowsTo t'') : t.GrowsTo t'' := by
  obtain ⟨more, hrows, hmore⟩ := h.rows
  obtain ⟨more', hrows', hmore'⟩ := h'.rows
  refine ⟨⟨more ++ more', by rw [hrows', hrows, List.append_assoc], fun r hr => ?_⟩,
    Nat.le_trans h.last h'.last⟩
  rcases List.mem_append.mp hr with hr | hr
  · exact hmore r hr
  · exact Int.lt_of_le_of_lt (Int.ofNat_le.mpr h.last) (hmore' r hr)

theorem insert (t : Numbered α) (a : α) : t.GrowsTo (t.insert a) := by
  refine ⟨⟨[(t.next, a)], rfl, fun r hr => ?_⟩, Nat.le_succ _⟩
  rw [List.mem_singleton.mp hr]
  exact Int.lt_succ _

/-- A row with a number handed out before was there before. -/
theorem mem_of_le (h : t.GrowsTo t') {r : Int × α} (hr : r ∈ t'.rows) (hle : r.1 ≤ t.last) :
    r ∈ t.rows := by
  obtain ⟨more, hrows, hmore⟩ := h.rows
  rw [hrows] at hr
  rcases List.mem_append.mp hr with hr | hr
  · exact hr
  · exact absurd (hmore r hr) (Int.not_lt.mpr hle)

end GrowsTo

end Numbered

/-! ## What stands behind a number -/

/-- The rows of the log after a number. -/
def rowsAfter (s : Store) (afterId : Int) : List (Int × EventRow) :=
  s.events.rows.filter fun r => afterId < r.1

/-- The numbers of the log after a number. -/
def idsAfter (s : Store) (afterId : Int) : List Int := (s.rowsAfter afterId).map Prod.fst

variable {s s' : Store} {afterId : Int}

theorem eventRowsAfter_eq (s : Store) (afterId : Int) (limit : Nat) :
    s.eventRowsAfter afterId limit = limited limit (s.rowsAfter afterId) := rfl

theorem mem_rowsAfter {r : Int × EventRow} :
    r ∈ s.rowsAfter afterId ↔ r ∈ s.events.rows ∧ afterId < r.1 := by
  rw [rowsAfter, List.mem_filter, decide_eq_true_iff]

theorem rowsAfter_grows (h : s.events.GrowsTo s'.events) (afterId : Int) :
    s.rowsAfter afterId <+: s'.rowsAfter afterId := by
  obtain ⟨more, hrows, -⟩ := h.rows
  rw [rowsAfter, rowsAfter, hrows, List.filter_append]
  exact List.prefix_append _ _

theorem idsAfter_grows (h : s.events.GrowsTo s'.events) (afterId : Int) :
    s.idsAfter afterId <+: s'.idsAfter afterId := (rowsAfter_grows h afterId).map Prod.fst

theorem idsAfter_pairwise (s : Store) (afterId : Int) : (s.idsAfter afterId).Pairwise (· < ·) :=
  s.events.ascending.sublist (List.filter_sublist.map Prod.fst)

/-- Behind one of the rows after a number stand those that come after it. -/
theorem rowsAfter_of_split {r : Int × EventRow} {rows rows' : List (Int × EventRow)}
    (h : s.rowsAfter afterId = rows ++ r :: rows') : s.rowsAfter r.1 = rows' := by
  have hfilter : s.rowsAfter r.1 = (s.rowsAfter afterId).filter fun r' => r.1 < r'.1 := by
    have hafter : afterId < r.1 := (mem_rowsAfter (s := s) (r := r)).mp (by simp [h]) |>.2
    rw [rowsAfter, rowsAfter, List.filter_filter]
    refine List.filter_congr fun r' _ => ?_
    by_cases hr : r.1 < r'.1
    · simp [hr, Int.lt_trans hafter hr]
    · simp [hr]
  have hsorted := s.idsAfter_pairwise afterId
  rw [idsAfter, h, List.map_append, List.map_cons, List.pairwise_append,
    List.pairwise_cons] at hsorted
  obtain ⟨-, ⟨hbehind, -⟩, hbefore⟩ := hsorted
  have hrows : rows.filter (fun r' => decide (r.1 < r'.1)) = [] :=
    List.filter_eq_nil_iff.mpr fun r' hr' => by
      simpa using Int.le_of_lt (hbefore r'.1 (List.mem_map_of_mem hr') r.1 List.mem_cons_self)
  have hrows' : rows'.filter (fun r' => decide (r.1 < r'.1)) = rows' :=
    List.filter_eq_self.mpr fun r' hr' => decide_eq_true (hbehind r'.1 (List.mem_map_of_mem hr'))
  rw [hfilter, h, List.filter_append, List.filter_cons_of_neg (by simp), hrows, hrows',
    List.nil_append]

theorem limited_prefix {α : Type} (limit : Nat) (rows : List α) : limited limit rows <+: rows := by
  rw [limited]
  split
  · exact List.take_prefix _ _
  · exact List.prefix_refl _

theorem limited_ne_nil {α : Type} {limit : Nat} {rows : List α} (hl : 0 < limit)
    (h : rows ≠ []) : limited limit rows ≠ [] := by
  rw [limited]
  split
  · rw [Ne, List.take_eq_nil_iff]
    exact fun hn => hn.elim (Nat.ne_of_gt hl) h
  · exact h

/-! ## Reading events -/

/-- What is read are the events of the rows, one for each. -/
theorem readEvents_ok {now : Instant} :
    ∀ {rows : List (Int × EventRow)} {events : List Event}, readEvents now rows = .ok events →
      List.Forall₂ (fun r e => r.2.record now r.1 = .ok e) rows events
  | [], events, h => by
      cases h
      exact .nil
  | (id, row) :: rows, events, h => by
      rw [readEvents] at h
      cases hrow : row.record now id with
      | error e => rw [hrow] at h; cases h
      | ok e =>
        cases hrest : readEvents now rows with
        | error e' => rw [hrow, hrest] at h; cases h
        | ok es =>
          rw [hrow, hrest] at h
          cases h
          exact .cons hrow (readEvents_ok hrest)

/-! ## Cursors -/

/-- How far a node has come in the log; 0 at first. -/
def position (s : Store) (nodeId : Int) : Int := (s.cursors.get? nodeId).getD 0

theorem le_lastEventId {r : Int × EventRow} (h : r ∈ s.events.rows) : r.1 ≤ s.lastEventId := by
  rcases List.eq_nil_or_concat s.events.rows with hnil | ⟨rows, last, hrows⟩
  · rw [hnil] at h
    cases h
  · rw [List.concat_eq_append] at hrows
    have hsorted := s.events.ascending
    rw [hrows, List.map_append, List.pairwise_append] at hsorted
    rw [lastEventId, hrows, List.getLast?_concat]
    rw [hrows] at h
    rcases List.mem_append.mp h with h | h
    · exact Int.le_of_lt (hsorted.2.2 r.1 (List.mem_map_of_mem h) last.1 List.mem_cons_self)
    · rw [List.mem_singleton.mp h]
      exact Int.le_refl _

/-- Where the cursor of a node stands after it was moved to an event. -/
def cursorAt (s : Store) (nodeId eventId : Int) : Int :=
  (s.cursors.get? nodeId).elim (min eventId s.lastEventId) (max · (min eventId s.lastEventId))

/-- The cursors after that of a node was moved to an event. -/
def movedCursors (s : Store) (nodeId eventId : Int) : Table Int Int :=
  s.cursors.upsert nodeId (min eventId s.lastEventId) (max · (min eventId s.lastEventId))

theorem get?_movedCursors (s : Store) (nodeId eventId nodeId' : Int) :
    (s.movedCursors nodeId eventId).get? nodeId' =
      if nodeId' = nodeId then some (s.cursorAt nodeId eventId) else s.cursors.get? nodeId' :=
  Table.get?_upsert _ _ _ _ _

/-- A cursor can be moved if it is there or its node is. -/
theorem run_advanceCursor_of_known {nodeId : Int} (eventId : Int)
    (hknown : (s.cursors.contains nodeId || s.nodes.contains nodeId) = true) :
    (advanceCursor nodeId eventId).run s =
      (.ok (s.cursorAt nodeId eventId), { s with cursors := s.movedCursors nodeId eventId }) := by
  have hget := s.get?_movedCursors nodeId eventId nodeId
  rw [if_pos rfl] at hget
  rw [advanceCursor, Action.run_bind, putCursor, Action.run_statement]
  simp only [if_pos hknown, Action.run_read]
  rw [movedCursors] at hget ⊢
  rw [hget]

theorem run_advanceCursor_of_unknown {nodeId : Int} (eventId : Int)
    (hknown : ¬ (s.cursors.contains nodeId || s.nodes.contains nodeId) = true) :
    (advanceCursor nodeId eventId).run s = (.error .danglingReference, s) := by
  simp only [advanceCursor, putCursor, Action.run_bind, Action.run_statement, if_neg hknown]

end Store

/-- What the row says, whenever it is read. -/
def EventRow.content (r : EventRow) : Except Error NewEvent := do
  let eventType ← readWord 1 r.eventType EventType.ofWord?
  let source ← match r.source with
    | none => .ok none
    | some word => (readWord 3 word Part.ofWord?).map some
  return ⟨eventType, r.projectId, source⟩

theorem EventRow.record_eq (r : EventRow) (now : Instant) (id : Int) :
    r.record now id = r.content.map fun c =>
      ⟨id, c.eventType, c.projectId, c.source, .ofStored now r.createdAt⟩ := by
  rw [record, content]
  cases readWord 1 r.eventType EventType.ofWord? with
  | error e => rfl
  | ok eventType =>
    cases r.source with
    | none => rfl
    | some word =>
      cases hpart : readWord 3 word Part.ofWord? <;> simp only [hpart] <;> rfl

theorem EventRow.record_id {now : Instant} {id : Int} {r : EventRow} {e : Event}
    (h : r.record now id = .ok e) : e.id = id := by
  rw [record_eq] at h
  cases hcontent : r.content with
  | error e => rw [hcontent] at h; cases h
  | ok c =>
    rw [hcontent] at h
    cases h
    rfl

/-! ## Operations of the store -/

namespace Call

/-- The operation touches neither the log nor a cursor. -/
def LeavesLog (c : Call) : Prop :=
  ∀ now s, (c.run now s).2.events = s.events ∧ (c.run now s).2.cursors = s.cursors

theorem leavesLog_of_writes {c : Call} (hevents : .events ∉ c.writes)
    (hcursors : .cursors ∉ c.writes) : c.LeavesLog := fun now s =>
  ⟨c.sameBut_run now s .events hevents, c.sameBut_run now s .cursors hcursors⟩

theorem leavesLog_of_reads {c : Call} (h : c.writes = []) : c.LeavesLog :=
  leavesLog_of_writes (h ▸ List.not_mem_nil) (h ▸ List.not_mem_nil)

end Call

end GeoReplication
