import GeoReplication.Proofs.Store.Keys
import GeoReplication.Proofs.Store.Registries
import Mathlib.Logic.Relation

/-!
# Proofs/Store/Reached — what holds in every store

A store is reached from the empty one by operations with any arguments at any times.  Whatever they
are, a part whose row says that it was attempted says how that ended, and registries belong to
projects that exist (`Store.Reached.sound`).
-/

namespace GeoReplication

open GeoReplication.Time Relation

namespace PartRow

/-- Never attempted; or attempted, and then synced, with the time of a success, or failed. -/
def Sound (r : PartRow) : Prop :=
  r.syncedAt = none ∧ r.state = SyncState.neverSynced.word ∧ r.successfulAt = none ∨
    r.syncedAt.isSome ∧ r.state = SyncState.synced.word ∧ r.successfulAt.isSome ∨
    r.syncedAt.isSome ∧ r.state = SyncState.syncFailed.word

theorem sound_fresh : fresh.Sound := .inl ⟨rfl, rfl, rfl⟩

theorem sound_succeed (time started : String) (r : PartRow) : (r.succeed time started).Sound :=
  .inr (.inl ⟨rfl, rfl, rfl⟩)

theorem sound_fail (time reason : String) (r : PartRow) : (r.fail time reason).Sound :=
  .inr (.inr ⟨rfl, rfl⟩)

theorem Sound.requestResync {r : PartRow} (h : r.Sound) (time : String) :
    (r.requestResync time).Sound := h

end PartRow

namespace Store

/-- The rows of all registries are sound and belong to projects that exist. -/
structure Sound (s : Store) : Prop where
  rows : ∀ key row, s.registries.get? key = some row → ∀ part, (row.part part).Sound
  projects : ∀ key row, s.registries.get? key = some row → s.projects.contains key.2 = true

variable {s s' : Store}

/-- Soundness lasts as long as rows stay as they are, or go, and projects stay. -/
theorem Sound.mono (h : s.Sound)
    (hrows : ∀ key row, s'.registries.get? key = some row → s.registries.get? key = some row ∧
      (s.projects.contains key.2 = true → s'.projects.contains key.2 = true)) : s'.Sound where
  rows key row hrow := h.rows key row (hrows key row hrow).1
  projects key row hrow :=
    (hrows key row hrow).2 (h.projects key row (hrows key row hrow).1)

theorem Sound.rowOrFresh (h : s.Sound) (now : Instant) (key : Int × Int) (part : Part) :
    ((s.rowOrFresh now key).part part).Sound := by
  rw [Store.rowOrFresh]
  cases hrow : s.registries.get? key with
  | some row => exact h.rows key row hrow part
  | none => cases part <;> exact PartRow.sound_fresh

theorem Sound.rewrites {now : Instant} {key : Int × Int} {part : Part} {f : PartRow → PartRow}
    (hf : ∀ r : PartRow, r.Sound → (f r).Sound) (h : s.Sound) (hw : Rewrites now key part f s s') :
    s'.Sound := by
  have hprojects : s'.projects = s.projects := by rw [hw.rest]
  have hknown : s.projects.contains key.2 = true := by
    rcases hw.known with hthere | hknown
    · obtain ⟨row, hrow⟩ := Option.isSome_iff_exists.mp hthere
      exact h.projects key row hrow
    · exact hknown.2
  constructor
  · intro key' row hrow part'
    rw [hw.rows] at hrow
    split at hrow
    · cases hrow
      by_cases hpart : part' = part
      · subst hpart
        rw [RegistryRow.part_modify]
        exact hf _ (h.rowOrFresh now key part')
      · rw [RegistryRow.part_modify_of_ne hpart]
        exact h.rowOrFresh now key part'
    · exact h.rows key' row hrow part'
  · intro key' row hrow
    rw [hprojects]
    rw [hw.rows] at hrow
    split at hrow
    · next hkey => exact hkey ▸ hknown
    · exact h.projects key' row hrow

/-! ## Operations -/

theorem run_createProject (now : Instant) (p : NewProject) (s : Store) :
    ((Call.createProject p).run now s).2 = s ∨
      ∃ row : ProjectRow, ((Call.createProject p).run now s).2 =
          { s with projects := s.projects.insert row } ∧
        row.repositoryUpdatedAt = p.lastRepositoryUpdatedAt.map Instant.stored ∧
        row.wikiUpdatedAt = none := by
  have hlift : ((Call.createProject p).run now s).2 = ((createProject now p).run s).2 :=
    Call.snd_lift _ s
  rw [hlift]
  simp only [createProject, insertProject, Action.run_bind, Action.run_statement]
  split
  · next h =>
    split at h
    · next hnew =>
      split at hnew
      · cases hnew
      · split at hnew
        · cases hnew
        · cases hnew
          cases h
          exact .inr ⟨_, rfl, rfl, rfl⟩
    · cases h
  · next h =>
    split at h
    · cases h
    · cases h
      exact .inl rfl

theorem run_touchProject (now : Instant) (id : Int) (part : Part) (time : Instant) (s : Store) :
    ((Call.touchProject id part time).run now s).2 = s ∨
      ((Call.touchProject id part time).run now s).2 =
        { s with projects := s.projects.modify id (·.touch time.stored part) } := by
  have hlift : ((Call.touchProject id part time).run now s).2 =
      ((touchProject id part time).run s).2 := Call.snd_lift _ s
  rw [hlift, touchProject, Action.run_statement]
  by_cases hthere : s.projects.contains id = true
  · rw [if_pos hthere]
    exact .inr rfl
  · rw [if_neg hthere]
    exact .inl rfl

/-- **Every operation keeps rows sound.** -/
theorem Sound.run (h : s.Sound) (now : Instant) (c : Call) : (c.run now s).2.Sound := by
  by_cases hc : c.Touches
  · cases c with
    | createProject p =>
      rcases run_createProject now p s with hrun | ⟨row, hrun, -⟩
      · rwa [hrun]
      · rw [hrun]
        exact h.mono fun key _ hrow =>
          ⟨hrow, fun hknown => Numbered.contains_insert.mpr (.inl hknown)⟩
    | deleteProject id =>
      refine h.mono fun key row hrow => ?_
      obtain ⟨hthere, hother⟩ := get?_of_filter hrow
      refine ⟨hthere, fun hknown => ?_⟩
      change (s.projects.erase id).contains key.2 = true
      rw [Numbered.contains, Numbered.get?_erase, if_neg (of_decide_eq_true hother)]
      exact hknown
    | touchProject id part time =>
      rcases run_touchProject now id part time s with hrun | hrun
      · rwa [hrun]
      · rw [hrun]
        exact h.mono fun key _ hrow => ⟨hrow, Numbered.contains_modify.trans⟩
    | expireRepositoryCache id =>
      exact h.mono fun key _ hrow => ⟨hrow, Numbered.contains_modify.trans⟩
    | deleteNode id => exact h.mono fun key _ hrow => ⟨(get?_of_filter hrow).1, fun h => h⟩
    | recordSyncSuccess nodeId projectId part started =>
      rcases Call.settles_recordSyncSuccess now nodeId projectId part s started with
        ⟨e, hrun⟩ | ⟨r, -, hw⟩
      · rwa [hrun]
      · exact h.rewrites (fun r _ => r.sound_succeed _ _) hw
    | recordSyncFailure nodeId projectId part reason =>
      rcases Call.settles_recordSyncFailure now nodeId projectId part s reason with
        ⟨e, hrun⟩ | ⟨r, -, hw⟩
      · rwa [hrun]
      · exact h.rewrites (fun r _ => r.sound_fail _ _) hw
    | requestResync nodeId projectId part =>
      rcases Call.settles_requestResync now nodeId projectId part s with ⟨e, hrun⟩ | ⟨r, -, hw⟩
      · rwa [hrun]
      · exact h.rewrites (fun r hr => hr.requestResync _) hw
    | deleteRegistry nodeId projectId =>
      exact h.mono fun key _ hrow => ⟨(get?_of_filter hrow).1, fun h => h⟩
    | _ => exact hc.elim
  · have hrecords := Call.records_run hc now s
    obtain ⟨hregistries, hprojects⟩ := Prod.mk.inj hrecords
    exact h.mono fun key _ hrow =>
      ⟨hregistries ▸ hrow, fun hknown => by rw [hprojects]; exact hknown⟩

/-- The stores that operations lead to from the empty one. -/
inductive Reached : Store → Prop
  | empty : Reached .empty
  | call {s : Store} (now : Instant) (c : Call) : Reached s → Reached (c.run now s).2

theorem Reached.calls (now : Instant) :
    ∀ (calls : List Call) {s : Store}, s.Reached →
      (calls.foldl (fun s c => (c.run now s).2) s).Reached
  | [], _, h => h
  | c :: calls, _, h => Reached.calls now calls (.call now c h)

theorem Reached.sound (h : s.Reached) : s.Sound := by
  induction h with
  | empty =>
    exact ⟨fun _ _ h => absurd h (by simp [Store.empty]),
      fun _ _ h => absurd h (by simp [Store.empty])⟩
  | call now c _ ih => exact ih.run now c

/-! ## Runs of operations -/

/-- One store is what an operation makes of the other. -/
def Step (s s' : Store) : Prop := ∃ (now : Instant) (c : Call), s' = (c.run now s).2

/-- What every operation keeps, every run of operations keeps. -/
theorem steps_keep {P : Store → Prop} (hsteps : ReflTransGen Step s s')
    (hrun : ∀ s now (c : Call), P s → P (c.run now s).2) (h : P s) : P s' := by
  induction hsteps with
  | refl => exact h
  | tail _ hstep ih =>
    obtain ⟨now, c, rfl⟩ := hstep
    exact hrun _ now c ih

end Store

end GeoReplication
