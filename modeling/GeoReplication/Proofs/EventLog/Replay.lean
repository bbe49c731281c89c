import GeoReplication.Proofs.EventLog.Trials
import GeoReplication.Proofs.Store.Registries
import Mathlib.Logic.Function.Basic

/-!
# Proofs/EventLog/Replay — the log as a fold over the registries of a node

    created, renamed, updated: mark a part of a known project        deleted: remove the row

`EventLog.replay` goes through events, each with the time at which it is applied, and changes the
registries of one node, whatever batches the events come in.  The times are all that it takes from
outside (`SameUndated.replay`).  `Replayed` says of two stores that such a replay lies between them
and nothing else but the cursor of the node was written; applying one event is a replay of that
event (`Replayed.removed`, `Replayed.skipped`, `Replayed.requested`).
-/

namespace GeoReplication

open GeoReplication.Time

/-- What an event says. -/
def Event.content (e : Event) : NewEvent := ⟨e.eventType, e.projectId, e.source⟩

namespace EventLog

/-! ## The fold -/

/-- The registries of a node, by project. -/
abbrev Registries := Int → Option RegistryRow

/-- A part of a known project is marked for another copy; a missing row is created. -/
def mark (known : Int → Bool) (rows : Registries) (projectId : Int) (part : Part) (time : String) :
    Registries :=
  if known projectId then
    Function.update rows projectId
      (some (((rows projectId).getD (.fresh time)).modify part (.requestResync time)))
  else rows

/-- One event, applied at a time. -/
def replayOne (known : Int → Bool) (rows : Registries) : NewEvent × String → Registries
  | (⟨.created, projectId, _⟩, time) => mark known rows projectId .repository time
  | (⟨.renamed, projectId, _⟩, time) => mark known rows projectId .repository time
  | (⟨.updated, projectId, source⟩, time) =>
    mark known rows projectId (source.getD .repository) time
  | (⟨.deleted, projectId, _⟩, _) => Function.update rows projectId none

/-- Events one after another. -/
def replay (known : Int → Bool) (rows : Registries) (log : List (NewEvent × String)) : Registries :=
  log.foldl (replayOne known) rows

variable {known : Int → Bool} {rows rows' : Registries}

theorem replay_append (log log' : List (NewEvent × String)) :
    replay known rows (log ++ log') = replay known (replay known rows log) log' :=
  List.foldl_append

theorem replayOne_deleted {e : Event} (h : e.eventType = .deleted) (time : String) :
    replayOne known rows (e.content, time) = Function.update rows e.projectId none := by
  rw [Event.content, h]
  rfl

theorem replayOne_of_ne {e : Event} (h : e.eventType ≠ .deleted) (time : String) :
    replayOne known rows (e.content, time) =
      mark known rows e.projectId (marked e) time := by
  rw [Event.content, marked]
  cases htype : e.eventType with
  | deleted => exact absurd htype h
  | _ => rfl

end EventLog

/-! ## Times -/

/-- The half without the time of a request. -/
def PartRow.undated (r : PartRow) : PartRow := { r with resyncAt := r.resyncAt.map fun _ => "" }

/-- The row without the times that events write. -/
def RegistryRow.undated (r : RegistryRow) : RegistryRow :=
  ⟨r.repository.undated, r.wiki.undated, ""⟩

/-- A request leaves its time only. -/
theorem RegistryRow.undated_request (row : RegistryRow) (part : Part) (time : String) :
    (row.modify part (.requestResync time)).undated =
      row.undated.modify part fun r => { r with resyncAt := some "" } := by
  cases part <;> rfl

namespace EventLog

/-- The registries are the same but for the times that events write. -/
def SameUndated (rows rows' : Registries) : Prop :=
  ∀ projectId, (rows projectId).map RegistryRow.undated = (rows' projectId).map RegistryRow.undated

variable {known : Int → Bool} {rows rows' : Registries}

theorem SameUndated.update (h : SameUndated rows rows') (projectId : Int)
    {row row' : Option RegistryRow}
    (hrow : row.map RegistryRow.undated = row'.map RegistryRow.undated) :
    SameUndated (Function.update rows projectId row) (Function.update rows' projectId row') := by
  intro other
  by_cases hother : other = projectId
  · subst hother
    rwa [Function.update_self, Function.update_self]
  · rw [Function.update_of_ne hother, Function.update_of_ne hother]
    exact h other

theorem SameUndated.mark (h : SameUndated rows rows') (projectId : Int) (part : Part)
    (time time' : String) :
    SameUndated (mark known rows projectId part time) (mark known rows' projectId part time') := by
  rw [EventLog.mark, EventLog.mark]
  split
  · refine h.update projectId (congrArg some ?_)
    have hrow : ((rows projectId).getD (.fresh time)).undated =
        ((rows' projectId).getD (.fresh time')).undated := by
      have hsame := h projectId
      cases hold : rows projectId with
      | none =>
        rw [hold] at hsame
        rw [Option.map_eq_none_iff.mp hsame.symm]
        rfl
      | some row =>
        rw [hold] at hsame
        obtain ⟨row', hrow', hundated⟩ := Option.map_eq_some_iff.mp hsame.symm
        rw [hrow']
        exact hundated.symm
    rw [RegistryRow.undated_request, RegistryRow.undated_request, hrow]
  · exact h

theorem SameUndated.replayOne (h : SameUndated rows rows') (e : NewEvent) (time time' : String) :
    SameUndated (replayOne known rows (e, time)) (replayOne known rows' (e, time')) := by
  obtain ⟨type, projectId, source⟩ := e
  cases type with
  | created => exact h.mark projectId .repository time time'
  | renamed => exact h.mark projectId .repository time time'
  | updated => exact h.mark projectId (source.getD .repository) time time'
  | deleted => exact h.update projectId rfl

/-- **Only times come from outside**: the same events leave the same registries but for times. -/
theorem SameUndated.replay (h : SameUndated rows rows') {log log' : List (NewEvent × String)}
    (hevents : log.map Prod.fst = log'.map Prod.fst) :
    SameUndated (replay known rows log) (replay known rows' log') := by
  induction log generalizing rows rows' log' with
  | nil =>
    rw [List.map_eq_nil_iff.mp hevents.symm]
    exact h
  | cons e log ih =>
    obtain ⟨⟨_, time'⟩, log', rfl, rfl, hrest⟩ := List.map_eq_cons_iff.mp hevents.symm
    change SameUndated (EventLog.replay known (EventLog.replayOne known rows e) log)
      (EventLog.replay known (EventLog.replayOne known rows' (e.1, time')) log')
    exact ih (h.replayOne e.1 e.2 time') hrest.symm

/-! ## Replays of the store -/

end EventLog

/-- The registries of a node. -/
def Store.registriesOf (s : Store) (nodeId : Int) : EventLog.Registries := fun projectId =>
  s.registries.get? (nodeId, projectId)

namespace EventLog

/-- Between the two stores events were replayed for a node, and nothing else was written but its
cursor. -/
structure Replayed (nodeId : Int) (log : List (NewEvent × String)) (s s' : Store) : Prop where
  rest : s' = { s with registries := s'.registries, cursors := s'.cursors }
  own : s'.registriesOf nodeId = replay s.projects.contains (s.registriesOf nodeId) log
  others (key : Int × Int) : key.1 ≠ nodeId → s'.registries.get? key = s.registries.get? key
  cursors (nodeId' : Int) : nodeId' ≠ nodeId → s'.cursors.get? nodeId' = s.cursors.get? nodeId'

namespace Replayed

variable {nodeId : Int} {log log' : List (NewEvent × String)} {s s' s'' : Store}

theorem refl (nodeId : Int) (s : Store) : Replayed nodeId [] s s :=
  ⟨rfl, rfl, fun _ _ => rfl, fun _ _ => rfl⟩

theorem trans (h : Replayed nodeId log s s') (h' : Replayed nodeId log' s' s'') :
    Replayed nodeId (log ++ log') s s'' where
  rest := by rw [h'.rest, h.rest]
  own := by
    have hprojects : s'.projects = s.projects := by rw [h.rest]
    rw [h'.own, h.own, hprojects, replay_append]
  others key hkey := (h'.others key hkey).trans (h.others key hkey)
  cursors nodeId' hnode := (h'.cursors nodeId' hnode).trans (h.cursors nodeId' hnode)

/-- The nodes are as they were. -/
theorem nodes (h : Replayed nodeId log s s') : s'.nodes = s.nodes := by rw [h.rest]

/-- The log is as it was. -/
theorem rowsAfter (h : Replayed nodeId log s s') (afterId : Int) :
    s'.rowsAfter afterId = s.rowsAfter afterId := by
  rw [h.rest]
  rfl

/-- A removal is a replay of its event. -/
theorem removed {e : Event} (h : e.eventType = .deleted) (now : Instant) (time : String)
    (s : Store) :
    Replayed nodeId [(e.content, time)] s
      ((Call.deleteRegistry nodeId e.projectId).run now s).2 where
  rest := rfl
  own := by
    funext projectId
    change (s.registries.erase (nodeId, e.projectId)).get? (nodeId, projectId) =
      replayOne s.projects.contains (s.registriesOf nodeId) (e.content, time) projectId
    rw [replayOne_deleted h, Store.Table.get?_erase, Function.update_apply]
    by_cases hproject : projectId = e.projectId
    · rw [if_pos hproject, if_pos (by rw [hproject])]
    · rw [if_neg hproject, if_neg fun hkey => hproject (Prod.mk.inj hkey).2]
      rfl
  others key hkey := by
    change (s.registries.erase (nodeId, e.projectId)).get? key = _
    rw [Store.Table.get?_erase, if_neg fun h => hkey (congrArg Prod.fst h)]
  cursors _ _ := rfl

/-- An event of an unknown project changes nothing, and neither does its replay. -/
theorem skipped {e : Event} (h : e.eventType ≠ .deleted)
    (hunknown : s.projects.contains e.projectId = false) (time : String) :
    Replayed nodeId [(e.content, time)] s s where
  rest := rfl
  own := by
    change _ = replayOne s.projects.contains (s.registriesOf nodeId) (e.content, time)
    rw [replayOne_of_ne h, mark, if_neg (by rw [hunknown]; exact Bool.false_ne_true)]
  others _ _ := rfl
  cursors _ _ := rfl

/-- A request for a copy is a replay of the event that asks for it. -/
theorem requested {e : Event} (h : e.eventType ≠ .deleted)
    (hknown : s.projects.contains e.projectId = true) {now : Instant}
    (hw : Store.Rewrites now (nodeId, e.projectId) (marked e) (.requestResync now.stored) s s') :
    Replayed nodeId [(e.content, now.stored)] s s' where
  rest := by rw [hw.rest]
  own := by
    funext projectId
    change s'.registries.get? (nodeId, projectId) =
      replayOne s.projects.contains (s.registriesOf nodeId) (e.content, now.stored) projectId
    rw [replayOne_of_ne h, mark, if_pos hknown, hw.rows, Function.update_apply]
    by_cases hproject : projectId = e.projectId
    · rw [if_pos hproject, if_pos (by rw [hproject])]
      rfl
    · rw [if_neg hproject, if_neg fun hkey => hproject (Prod.mk.inj hkey).2]
      rfl
  others key hkey := by
    rw [hw.rows, if_neg fun h => hkey (congrArg Prod.fst h)]
  cursors _ _ := by rw [hw.rest]

/-- A cursor that moves is no part of a replay. -/
theorem moved (h : Replayed nodeId log s s') (eventId : Int) :
    Replayed nodeId log s { s' with cursors := s'.movedCursors nodeId eventId } where
  rest := by rw [h.rest]
  own := h.own
  others := h.others
  cursors nodeId' hnode := by
    change (s'.movedCursors nodeId eventId).get? nodeId' = _
    rw [Store.get?_movedCursors, if_neg hnode, h.cursors nodeId' hnode]

end Replayed

end EventLog

end GeoReplication
