import GeoReplication.Proofs.Store.Events
import GeoReplication.Proofs.Store.Reached

/-!
# Proofs/Store/Cursors — cursors stay within the log

    cursor of a node ≤ last event,    and as long as the node is there    cursor ≤ cursor later

The log only grows and cursors are moved forward only, to an event of the log at most
(`Call.cursor_run`), so both inequalities go through every operation.  The second is about one node:
numbers of nodes are handed out upwards (`Numbered.Ages`), so a node that is there now and has a
number handed out before was there all the time.
-/

namespace GeoReplication

open GeoReplication.Time Relation

namespace Store

/-! ## Numbers are not handed out twice -/

namespace Numbered

variable {α : Type} {t t' t'' : Numbered α} {id : Int}

theorem le_last_of_contains (h : t.contains id = true) : id ≤ t.last := by
  obtain ⟨a, ha⟩ := Option.isSome_iff_exists.mp h
  exact (t.bounded (id, a) (get?_eq_some_iff.mp ha)).2

/-- A number handed out before belongs to a row only if it did before. -/
structure Ages (t t' : Numbered α) : Prop where
  last : t.last ≤ t'.last
  old : ∀ id ≤ (t.last : Int), t'.contains id = true → t.contains id = true

namespace Ages

theorem refl (t : Numbered α) : t.Ages t := ⟨Nat.le_refl _, fun _ _ h => h⟩

theorem trans (h : t.Ages t') (h' : t'.Ages t'') : t.Ages t'' where
  last := Nat.le_trans h.last h'.last
  old id hid hthere := h.old id hid (h'.old id (Int.le_trans hid (Int.ofNat_le.mpr h.last)) hthere)

theorem insert (t : Numbered α) (a : α) : t.Ages (t.insert a) where
  last := Nat.le_succ _
  old id hid hthere := by
    have hnext : id ≠ t.next := by
      rw [next]
      omega
    rwa [contains, get?_insert, if_neg hnext] at hthere

theorem modify (t : Numbered α) (id : Int) (f : α → α) : t.Ages (t.modify id f) where
  last := Nat.le_refl _
  old id' _ hthere := by
    rw [contains, get?_modify] at hthere
    split at hthere
    · rwa [Option.isSome_map] at hthere
    · exact hthere

theorem erase (t : Numbered α) (id : Int) : t.Ages (t.erase id) where
  last := Nat.le_refl _
  old id' _ hthere := by
    rw [contains, get?_erase] at hthere
    split at hthere
    · cases hthere
    · exact hthere

end Ages

end Numbered

/-! ## The last event -/

variable {s s' s'' : Store} {now : Instant} {c : Call} {nodeId : Int}

/-- The number of the last event is that of a row, unless there is none. -/
theorem lastEventId_eq (s : Store) :
    s.events.rows = [] ∧ s.lastEventId = 0 ∨ ∃ r ∈ s.events.rows, r.1 = s.lastEventId := by
  rw [lastEventId]
  cases hlast : s.events.rows.getLast? with
  | none => exact .inl ⟨List.getLast?_eq_none_iff.mp hlast, rfl⟩
  | some r => exact .inr ⟨r, List.mem_of_getLast? hlast, rfl⟩

theorem lastEventId_nonneg (s : Store) : 0 ≤ s.lastEventId := by
  rcases s.lastEventId_eq with ⟨-, h⟩ | ⟨r, hr, h⟩
  · exact Int.le_of_eq h.symm
  · exact h ▸ Int.le_of_lt (s.events.bounded r hr).1

/-- An event that no others come after is the last. -/
theorem eq_lastEventId {r : Int × EventRow} (hr : r ∈ s.events.rows)
    (hlast : s.rowsAfter r.1 = []) : r.1 = s.lastEventId := by
  refine Int.le_antisymm (le_lastEventId hr) (Int.not_lt.mp fun hlt => ?_)
  rcases s.lastEventId_eq with ⟨hnone, -⟩ | ⟨r', hr', hlast'⟩
  · exact absurd hr (hnone ▸ List.not_mem_nil)
  · have hafter : r' ∈ s.rowsAfter r.1 := mem_rowsAfter.mpr ⟨hr', hlast' ▸ hlt⟩
    exact absurd hafter (hlast ▸ List.not_mem_nil)

/-- A log that grows has its last event no earlier. -/
theorem lastEventId_mono (h : s.events.GrowsTo s'.events) : s.lastEventId ≤ s'.lastEventId := by
  obtain ⟨more, hrows, -⟩ := h.rows
  rcases s.lastEventId_eq with ⟨-, hzero⟩ | ⟨r, hr, hlast⟩
  · exact hzero ▸ s'.lastEventId_nonneg
  · exact hlast ▸ le_lastEventId (hrows ▸ List.mem_append_left more hr)

/-! ## Where cursors are moved -/

theorem le_cursorAt {cursor : Int} (h : s.cursors.get? nodeId = some cursor) (eventId : Int) :
    cursor ≤ s.cursorAt nodeId eventId := by
  rw [cursorAt, h]
  exact Int.le_max_left _ _

theorem cursorAt_le (h : ∀ cursor ∈ s.cursors.get? nodeId, cursor ≤ s.lastEventId)
    (eventId : Int) : s.cursorAt nodeId eventId ≤ s.lastEventId := by
  rw [cursorAt]
  cases hcursor : s.cursors.get? nodeId with
  | none => exact Int.min_le_right _ _
  | some cursor => exact Int.max_le.mpr ⟨h cursor hcursor, Int.min_le_right _ _⟩

/-! ## Operations -/

/-- The log only grows. -/
theorem events_run (c : Call) (now : Instant) (s : Store) :
    s.events.GrowsTo (c.run now s).2.events := by
  by_cases hplace : .events ∈ c.writes
  · cases c with
    | appendEvent e => exact .insert _ _
    | _ => exact absurd hplace (by simp [Call.writes])
  · have hsame : (c.run now s).2.events = s.events := c.sameBut_run now s .events hplace
    rw [hsame]
    exact .refl _

/-- Nodes have got more, under new numbers, or have been changed. -/
def NodesStay (s s' : Store) : Prop :=
  s.nodes.Ages s'.nodes ∧ ∀ id, s.nodes.contains id = true → s'.nodes.contains id = true

instance : IsPreorder Store NodesStay where
  refl _ := ⟨.refl _, fun _ h => h⟩
  trans _ _ _ h h' := ⟨h.1.trans h'.1, fun id hid => h'.2 id (h.2 id hid)⟩

/-- Nodes go only when they are removed. -/
theorem nodesStay_run (hc : ∀ id, c ≠ .deleteNode id) (now : Instant) (s : Store) :
    NodesStay s (c.run now s).2 := by
  by_cases hplace : .nodes ∈ c.writes
  · have hlinks (s : Store) (links : Table (Int × Int) Unit) : NodesStay s { s with links } :=
      ⟨.refl _, fun _ h => h⟩
    cases c with
    | createNode n =>
      exact Call.leads_lift (leads_createNode hlinks
        (fun s row => ⟨.insert _ row, fun _ h => Numbered.contains_insert.mpr (.inl h)⟩) now n) s
    | updateNode n =>
      exact Call.leads_lift (leads_updateNode hlinks
        (fun s id f => ⟨.modify _ id f, fun _ => Numbered.contains_modify.trans⟩) now n) s
    | deleteNode id => exact absurd rfl (hc id)
    | _ => exact absurd hplace (by simp [Call.writes])
  · have hsame : (c.run now s).2.nodes = s.nodes := c.sameBut_run now s .nodes hplace
    rw [NodesStay, hsame]
    exact refl_of NodesStay s

theorem nodes_run (c : Call) (now : Instant) (s : Store) :
    s.nodes.Ages (c.run now s).2.nodes := by
  by_cases hc : ∃ id, c = .deleteNode id
  · obtain ⟨id, rfl⟩ := hc
    exact .erase _ id
  · exact (nodesStay_run (fun id h => hc ⟨id, h⟩) now s).1

/-- A node is there until it is removed. -/
theorem contains_node_run (hc : c ≠ .deleteNode nodeId) (now : Instant)
    (h : s.nodes.contains nodeId = true) : (c.run now s).2.nodes.contains nodeId = true := by
  by_cases hdelete : ∃ id, c = .deleteNode id
  · obtain ⟨id, rfl⟩ := hdelete
    have hid : nodeId ≠ id := fun hid => hc (by rw [hid])
    change (s.nodes.erase id).contains nodeId = true
    rwa [Numbered.contains, Numbered.get?_erase, if_neg hid]
  · exact (nodesStay_run (fun id h => hdelete ⟨id, h⟩) now s).2 nodeId h

/-- **What an operation does to a cursor**: nothing, or it goes with its node, or it is moved. -/
theorem cursor_run (c : Call) (now : Instant) (s : Store) (nodeId : Int) :
    (c ≠ .deleteNode nodeId ∧ (c.run now s).2.cursors.get? nodeId = s.cursors.get? nodeId) ∨
    (c = .deleteNode nodeId ∧ (c.run now s).2.cursors.get? nodeId = none) ∨
    ∃ eventId, c = .advanceCursor nodeId eventId ∧
      (s.cursors.contains nodeId || s.nodes.contains nodeId) = true ∧
      (c.run now s).2.cursors.get? nodeId = some (s.cursorAt nodeId eventId) := by
  by_cases hplace : .cursors ∈ c.writes
  · cases c with
    | deleteNode id =>
      have hget := Table.get?_erase s.cursors id nodeId
      by_cases hid : nodeId = id
      · subst hid
        rw [if_pos rfl] at hget
        exact .inr (.inl ⟨rfl, hget⟩)
      · rw [if_neg hid] at hget
        exact .inl ⟨fun h => hid (by cases h; rfl), hget⟩
    | advanceCursor id eventId =>
      have hlift := Call.snd_lift (advanceCursor id eventId) s
      change (Call.run now (.advanceCursor id eventId) s).2 = _ at hlift
      rw [hlift]
      by_cases hknown : (s.cursors.contains id || s.nodes.contains id) = true
      · rw [run_advanceCursor_of_known eventId hknown, get?_movedCursors]
        by_cases hid : nodeId = id
        · subst hid
          exact .inr (.inr ⟨eventId, rfl, hknown, if_pos rfl⟩)
        · exact .inl ⟨fun h => (by cases h), if_neg hid⟩
      · rw [run_advanceCursor_of_unknown eventId hknown]
        exact .inl ⟨fun h => (by cases h), rfl⟩
    | _ => exact absurd hplace (by simp [Call.writes])
  · have hsame : (c.run now s).2.cursors = s.cursors := c.sameBut_run now s .cursors hplace
    rw [hsame]
    exact .inl ⟨fun h => by subst h; exact hplace (by simp [Call.writes]), rfl⟩

/-! ## Cursors belong to nodes and stay within the log -/

/-- Cursors belong to nodes and have not come further than the log. -/
structure Tied (s : Store) : Prop where
  node (nodeId cursor : Int) : s.cursors.get? nodeId = some cursor →
    s.nodes.contains nodeId = true
  within (nodeId cursor : Int) : s.cursors.get? nodeId = some cursor → cursor ≤ s.lastEventId

theorem Tied.run (h : s.Tied) (now : Instant) (c : Call) : (c.run now s).2.Tied := by
  have hlog := lastEventId_mono (events_run c now s)
  have hnode {nodeId cursor : Int} (hc : c ≠ .deleteNode nodeId)
      (hcursor : s.cursors.get? nodeId = some cursor) :
      (c.run now s).2.nodes.contains nodeId = true :=
    contains_node_run hc now (h.node nodeId cursor hcursor)
  constructor
  · intro nodeId cursor hcursor
    rcases cursor_run c now s nodeId with ⟨hc, hsame⟩ | ⟨-, hnone⟩ | ⟨eventId, rfl, hknown, -⟩
    · exact hnode hc (hsame ▸ hcursor)
    · rw [hnone] at hcursor
      cases hcursor
    · refine contains_node_run (by rintro ⟨⟩) now ?_
      rcases Bool.or_eq_true_iff.mp hknown with hthere | hthere
      · obtain ⟨old, hold⟩ := Option.isSome_iff_exists.mp hthere
        exact h.node nodeId old hold
      · exact hthere
  · intro nodeId cursor hcursor
    rcases cursor_run c now s nodeId with ⟨-, hsame⟩ | ⟨-, hnone⟩ | ⟨eventId, rfl, -, hmoved⟩
    · exact Int.le_trans (h.within nodeId cursor (hsame ▸ hcursor)) hlog
    · rw [hnone] at hcursor
      cases hcursor
    · rw [hmoved] at hcursor
      cases hcursor
      exact Int.le_trans (cursorAt_le (h.within nodeId) eventId) hlog

theorem Reached.tied (h : s.Reached) : s.Tied := by
  induction h with
  | empty => exact ⟨fun _ _ h => (by cases h), fun _ _ h => (by cases h)⟩
  | call now c _ ih => exact ih.run now c

/-! ## Runs of operations -/

theorem Tied.steps (h : s.Tied) (hsteps : ReflTransGen Step s s') : s'.Tied :=
  steps_keep hsteps (fun _ now c h => h.run now c) h

theorem events_steps (hsteps : ReflTransGen Step s s') : s.events.GrowsTo s'.events :=
  steps_keep (P := fun s' => s.events.GrowsTo s'.events) hsteps
    (fun s now c h => h.trans (events_run c now s)) (.refl _)

/-- The node is gone for good, or its cursor has come as far as `cursor`. -/
structure HasPassed (nodeId cursor : Int) (s : Store) : Prop where
  numbered : nodeId ≤ s.nodes.last
  passed : s.nodes.contains nodeId = true →
    ∃ later, s.cursors.get? nodeId = some later ∧ cursor ≤ later

theorem HasPassed.run {cursor : Int} (h : HasPassed nodeId cursor s) (now : Instant) (c : Call) :
    HasPassed nodeId cursor (c.run now s).2 where
  numbered := Int.le_trans h.numbered (Int.ofNat_le.mpr (nodes_run c now s).last)
  passed hthere := by
    obtain ⟨later, hlater, hle⟩ := h.passed ((nodes_run c now s).old nodeId h.numbered hthere)
    rcases cursor_run c now s nodeId with ⟨-, hsame⟩ | ⟨rfl, -⟩ | ⟨eventId, rfl, -, hmoved⟩
    · exact ⟨later, hsame.trans hlater, hle⟩
    · have hgone : (s.nodes.erase nodeId).contains nodeId = false := by
        rw [Numbered.contains, Numbered.get?_erase, if_pos rfl]
        rfl
      exact absurd (hgone.symm.trans hthere) (by decide)
    · exact ⟨_, hmoved, Int.le_trans hle (le_cursorAt hlater eventId)⟩

/-- **Cursors move forward only**, as long as their nodes are there. -/
theorem Tied.cursor_le (h : s.Tied) (hsteps : ReflTransGen Step s s') {cursor : Int}
    (hcursor : s.cursors.get? nodeId = some cursor) (hthere : s'.nodes.contains nodeId = true) :
    ∃ later, s'.cursors.get? nodeId = some later ∧ cursor ≤ later := by
  have hstart : HasPassed nodeId cursor s :=
    ⟨Numbered.le_last_of_contains (h.node nodeId cursor hcursor),
      fun _ => ⟨cursor, hcursor, Int.le_refl _⟩⟩
  have hend := steps_keep hsteps (fun _ now c h => h.run now c) hstart
  exact hend.passed hthere

end Store

end GeoReplication
