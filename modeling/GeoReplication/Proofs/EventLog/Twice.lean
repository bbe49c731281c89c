import GeoReplication.Proofs.EventLog.Replay

/-!
# Proofs/EventLog/Twice — a log that is replayed twice

    e ⋯ e = ⋯ then e          (of what an event leaves, only the last time counts)

To a row, times aside, an event does one of three things: nothing, removing it, or marking a part
(`turn`).  Requests come to the same in either order (`turn_comm`), and after a removal no
difference is left; so rows that an event makes the same stay so whatever comes before that event
(`turn_foldl_congr`), and an event that comes again is as if it had not come before
(`foldl_turn_of_mem`).
-/

namespace GeoReplication

/-! ## What an event does to one row -/

/-- The part that an event asks a copy of, unless it is that of a removal. -/
def NewEvent.part (e : NewEvent) : Part :=
  if e.eventType = .updated then e.source.getD .repository else .repository

/-- The row with a part marked for another copy, times aside. -/
def RegistryRow.asked (row : RegistryRow) (part : Part) : RegistryRow :=
  row.modify part fun r => { r with resyncAt := some "" }

namespace RegistryRow

theorem asked_asked (row : RegistryRow) (part : Part) :
    (row.asked part).asked part = row.asked part := by cases part <;> rfl

theorem asked_comm (row : RegistryRow) (part part' : Part) :
    (row.asked part).asked part' = (row.asked part').asked part := by
  cases part <;> cases part' <;> rfl

end RegistryRow

namespace EventLog

/-- What an event does to the row of a project, times aside. -/
def turn (known : Int → Bool) (projectId : Int) (row : Option RegistryRow) (e : NewEvent) :
    Option RegistryRow :=
  if e.projectId = projectId then
    if e.eventType = .deleted then none
    else if known projectId then some ((row.getD (.undated (.fresh ""))).asked e.part)
    else row
  else row

variable {known : Int → Bool} {projectId : Int} {row row' : Option RegistryRow} {e : NewEvent}

theorem turn_of_ne (h : e.projectId ≠ projectId) : turn known projectId row e = row := if_neg h

theorem turn_deleted (h : e.projectId = projectId) (he : e.eventType = .deleted) :
    turn known projectId row e = none := by rw [turn, if_pos h, if_pos he]

theorem undated_mark (rows : Registries) (marked : Int) (part : Part) (time : String) :
    (mark known rows marked part time projectId).map RegistryRow.undated =
      if marked = projectId then
        if known projectId then
          some ((((rows projectId).map RegistryRow.undated).getD (.undated (.fresh ""))).asked part)
        else (rows projectId).map RegistryRow.undated
      else (rows projectId).map RegistryRow.undated := by
  rw [mark]
  by_cases hproject : marked = projectId
  · subst hproject
    rw [if_pos rfl]
    split
    · rw [Function.update_self, Option.map_some, RegistryRow.undated_request]
      cases rows marked <;> rfl
    · rfl
  · rw [if_neg hproject]
    split
    · rw [Function.update_of_ne (Ne.symm hproject)]
    · rfl

/-- The fold over the registries is this for each row. -/
theorem undated_replayOne (rows : Registries) (e : NewEvent) (time : String) :
    (replayOne known rows (e, time) projectId).map RegistryRow.undated =
      turn known projectId ((rows projectId).map RegistryRow.undated) e := by
  obtain ⟨type, project, source⟩ := e
  cases type with
  | deleted =>
    change (Function.update rows project none projectId).map _ = if project = projectId then none
      else (rows projectId).map RegistryRow.undated
    rw [Function.update_apply]
    by_cases hproject : project = projectId
    · rw [if_pos hproject, if_pos hproject.symm]
      rfl
    · rw [if_neg hproject, if_neg (Ne.symm hproject)]
  | created => exact undated_mark rows project .repository time
  | renamed => exact undated_mark rows project .repository time
  | updated => exact undated_mark rows project (source.getD .repository) time

theorem undated_replay (rows : Registries) (log : List (NewEvent × String)) :
    (replay known rows log projectId).map RegistryRow.undated =
      (log.map Prod.fst).foldl (turn known projectId)
        ((rows projectId).map RegistryRow.undated) := by
  induction log generalizing rows with
  | nil => rfl
  | cons e log ih =>
    change (replay known (replayOne known rows e) log projectId).map _ = _
    rw [ih, undated_replayOne]
    rfl

/-! ## Twice is once -/

theorem turn_turn (row : Option RegistryRow) (e : NewEvent) :
    turn known projectId (turn known projectId row e) e = turn known projectId row e := by
  unfold turn
  split_ifs
  · rfl
  · exact congrArg some (RegistryRow.asked_asked _ _)
  · rfl
  · rfl

/-- Requests come to the same in either order. -/
theorem turn_comm {e g : NewEvent} (he : e.eventType ≠ .deleted) (hg : g.eventType ≠ .deleted)
    (row : Option RegistryRow) :
    turn known projectId (turn known projectId row g) e =
      turn known projectId (turn known projectId row e) g := by
  unfold turn
  rw [if_neg he, if_neg hg]
  split_ifs
  · exact congrArg some (RegistryRow.asked_comm _ _ _)
  all_goals rfl

/-- Rows that an event makes the same it makes the same after any other. -/
theorem turn_congr (h : turn known projectId row e = turn known projectId row' e)
    (g : NewEvent) : turn known projectId (turn known projectId row g) e =
      turn known projectId (turn known projectId row' g) e := by
  by_cases hg : g.eventType = .deleted
  · -- a removal leaves no difference, unless it is of another project
    by_cases hproject : g.projectId = projectId
    · rw [turn_deleted hproject hg, turn_deleted hproject hg]
    · rwa [turn_of_ne hproject, turn_of_ne hproject]
  by_cases he : e.eventType = .deleted
  · by_cases hproject : e.projectId = projectId
    · rw [turn_deleted hproject he, turn_deleted hproject he]
    · rw [turn_of_ne hproject, turn_of_ne hproject] at h
      rw [h]
  · rw [turn_comm he hg, turn_comm he hg, h]

/-- … and after any number of others. -/
theorem turn_foldl_congr
    (h : turn known projectId row e = turn known projectId row' e) (log : List NewEvent) :
    turn known projectId (log.foldl (turn known projectId) row) e =
      turn known projectId (log.foldl (turn known projectId) row') e := by
  induction log generalizing row row' with
  | nil => exact h
  | cons g log ih => exact ih (turn_congr h g)

/-- An event that comes again is as if it had not come before. -/
theorem foldl_turn_of_mem {log : List NewEvent} (he : e ∈ log)
    (row : Option RegistryRow) :
    log.foldl (turn known projectId) (turn known projectId row e) =
      log.foldl (turn known projectId) row := by
  obtain ⟨before, after, rfl⟩ := List.append_of_mem he
  rw [List.foldl_append, List.foldl_append, List.foldl_cons, List.foldl_cons,
    turn_foldl_congr (turn_turn row e) before]

/-- Events that all come again are as if they had not come before. -/
theorem foldl_turn_of_subset {log log' : List NewEvent} (h : log' ⊆ log)
    (row : Option RegistryRow) :
    log.foldl (turn known projectId) (log'.foldl (turn known projectId) row) =
      log.foldl (turn known projectId) row := by
  induction log' generalizing row with
  | nil => rfl
  | cons e log' ih =>
    obtain ⟨he, hrest⟩ := List.cons_subset.mp h
    rw [List.foldl_cons, ih hrest, foldl_turn_of_mem he]

/-- **Replaying events again changes times only.** -/
theorem sameUndated_replay_replay (rows : Registries) {log log' : List (NewEvent × String)}
    (h : log'.map Prod.fst = log.map Prod.fst) :
    SameUndated (replay known (replay known rows log) log') (replay known rows log) := by
  intro projectId
  rw [undated_replay, undated_replay, h]
  exact foldl_turn_of_subset (List.Subset.refl _) _

end EventLog

end GeoReplication
