import GeoReplication.Proofs.EventLog.WithinLog
import GeoReplication.Proofs.Program.Abreast
import GeoReplication.Proofs.Status.AddsUp
import Mathlib.Data.Finset.Card

/-!
# Proofs/Status/Overtaken — a status whose numbers were read while others wrote

    total … synced … failed … … … log … cursor
         ▴        ▴                  ▴
         └────────┴── others write ──┘

A status is not read at one moment but at five, in this order (`StatusReport.Readings`,
`secures_compute`).  The total is read before what is synced and failed, and the log before the
cursor.  So what others write in between can make the numbers contradict each other, and
`contradicts_iff` says exactly when it does: when an event is both appended and consumed between the
last two readings, or when between the first three more projects come to be counted twice, or
without being in the total, than there are in the total and counted neither way.
-/

namespace GeoReplication

open Program Relation

namespace Store

variable {s s' : Store} {scope : Scope}

/-! ## What is counted -/

/-- The projects that are counted. -/
def seen (s : Store) (scope : Scope) : Finset Int :=
  ((s.visibleProjects scope).map Prod.fst).toFinset

/-- The projects that are counted as being in a state. -/
def seenIn (s : Store) (scope : Scope) (state : SyncState) : Finset Int :=
  (((s.visibleProjects scope).filter fun r =>
    s.isIn scope.nodeId .repository state r.1).map Prod.fst).toFinset

theorem card_seen (s : Store) (scope : Scope) : (s.seen scope).card = s.projectCount scope := by
  have hnodup : ((s.visibleProjects scope).map Prod.fst).Nodup :=
    s.projects.nodup.sublist (List.filter_sublist.map _)
  rw [seen, List.toFinset_card_of_nodup hnodup, List.length_map, projectCount]

theorem card_seenIn (s : Store) (scope : Scope) (state : SyncState) :
    (s.seenIn scope state).card = s.registryCount scope .repository state := by
  have hnodup : (((s.visibleProjects scope).filter fun r =>
      s.isIn scope.nodeId .repository state r.1).map Prod.fst).Nodup :=
    s.projects.nodup.sublist ((List.filter_sublist.trans List.filter_sublist).map _)
  rw [seenIn, List.toFinset_card_of_nodup hnodup, List.length_map, registryCount_eq,
    List.countP_eq_length_filter]

/-- Two counts exceed a third by what is counted twice or too much, less what is not counted. -/
theorem card_add_card_le_iff {α : Type} [DecidableEq α] (all one other : Finset α) :
    one.card + other.card ≤ all.card ↔
      (one ∩ other).card + ((one ∪ other) \ all).card ≤ (all \ (one ∪ other)).card := by
  have hboth := Finset.card_union_add_card_inter one other
  have hcounted := Finset.card_sdiff_add_card_inter (one ∪ other) all
  have hall := Finset.card_sdiff_add_card_inter all (one ∪ other)
  rw [Finset.inter_comm] at hall
  omega

/-! ## Numbers of events -/

/-- No number of an event has been left out. -/
def Gapless (s : Store) : Prop :=
  ∀ id : Int, 0 < id → id ≤ s.events.last → s.events.contains id = true

theorem Gapless.run (h : s.Gapless) (now : Time.Instant) (c : Call) : (c.run now s).2.Gapless := by
  by_cases hplace : .events ∈ c.writes
  · cases c with
    | appendEvent e =>
      intro id hpos hle
      refine Numbered.contains_insert.mpr ?_
      by_cases hnew : id = s.events.next
      · exact .inr hnew
      · refine .inl (h id hpos ?_)
        have hlast : id ≤ (s.events.last + 1 : Nat) := hle
        rw [Numbered.next] at hnew
        omega
    | _ => exact absurd hplace (by simp [Call.writes])
  · have hsame : (c.run now s).2.events = s.events := c.sameBut_run now s .events hplace
    rw [Gapless, hsame]
    exact h

theorem Gapless.steps (h : s.Gapless) (hsteps : ReflTransGen Step s s') : s'.Gapless :=
  steps_keep hsteps (fun _ now c h => h.run now c) h

theorem Reached.gapless (h : s.Reached) : s.Gapless := by
  induction h with
  | empty =>
    intro id hpos hle
    exact absurd hpos (Int.not_lt.mpr hle)
  | call now c _ ih => exact ih.run now c

/-- The last number that was given to an event is that of the last event. -/
theorem Gapless.lastEventId_eq (h : s.Gapless) : s.lastEventId = s.events.last := by
  refine Int.le_antisymm ?_ ?_
  · rcases s.lastEventId_eq with ⟨-, hzero⟩ | ⟨r, hr, hlast⟩
    · omega
    · exact hlast ▸ (s.events.bounded r hr).2
  · by_cases hpos : (0 : Int) < s.events.last
    · obtain ⟨row, hrow⟩ := Numbered.contains_iff_exists.mp (h _ hpos (Int.le_refl _))
      exact le_lastEventId (Numbered.get?_eq_some_iff.mp hrow)
    · have hnonneg := s.lastEventId_nonneg
      omega

/-- **A cursor that is read after the log** is within the log as it was read, unless it has passed
an event that was appended in between. -/
theorem Gapless.cursor_le_iff (h : s.Gapless) (hs' : s'.Gapless) (htied : s'.Tied) {nodeId c : Int}
    (hc : s'.cursors.get? nodeId = some c) :
    c ≤ s.lastEventId ↔
      ∀ id, s'.events.contains id = true → s.events.contains id = false → c < id := by
  rw [h.lastEventId_eq]
  constructor
  · intro hle id hthere hnew
    obtain ⟨row, hrow⟩ := Numbered.contains_iff_exists.mp hthere
    have hpos := (s'.events.bounded _ (Numbered.get?_eq_some_iff.mp hrow)).1
    refine Int.not_le.mp fun hid => ?_
    exact absurd (hnew.symm.trans (h id hpos (Int.le_trans hid hle))) Bool.false_ne_true
  · intro hnew
    refine Int.not_lt.mp fun hlt => ?_
    -- the first event after the log as it was read
    have hlast := htied.within nodeId c hc
    rw [hs'.lastEventId_eq] at hlast
    have hthere := hs' (s.events.last + 1) (by omega) (by omega)
    have hmissing : s.events.contains (s.events.last + 1) = false := by
      refine Bool.eq_false_iff.mpr fun hold => ?_
      have hle := Numbered.le_last_of_contains hold
      omega
    exact absurd (hnew _ hthere hmissing) (by omega)

end Store

namespace StatusReport

variable {s s₀ s' : Site} {scope : Scope} {nodeId : Int}

/-! ## Readings -/

/-- The sites at which the numbers of a status were read. -/
structure Readings where
  total : Site
  synced : Site
  failed : Site
  log : Site
  cursor : Site

/-- Readings between two sites, in their order and with any turns of others in between, that make
up a status. -/
structure Readings.Make (rs : Readings) (scope : Scope) (s : Site) (st : NodeStatus) (s' : Site) :
    Prop where
  total : ReflTransGen Site.Turn s rs.total ∧
    st.repositories.total = rs.total.store.projectCount scope
  synced : ReflTransGen Site.Turn rs.total rs.synced ∧
    st.repositories.synced = rs.synced.store.registryCount scope .repository .synced
  failed : ReflTransGen Site.Turn rs.synced rs.failed ∧
    st.repositories.failed = rs.failed.store.registryCount scope .repository .syncFailed
  log : ReflTransGen Site.Turn rs.failed rs.log ∧
    st.lastEventId.getD 0 = rs.log.store.lastEventId
  cursor : ReflTransGen Site.Turn rs.log rs.cursor ∧
    st.cursorEventId = rs.cursor.store.cursors.get? scope.nodeId
  rest : ReflTransGen Site.Turn rs.cursor s'

/-- Whatever a program does, and others in between, are turns. -/
theorem secures_turns {α : Type} (t : Program α) {F : Site → Effect → Prop}
    (hs : ReflTransGen Site.Turn s₀ s) :
    t.Secures Site.Turn F (Returns True fun _ s' => ReflTransGen Site.Turn s₀ s') s := by
  have hevery : t.Every (fun _ => True) fun _ => True := by
    induction t with
    | done a => trivial
    | failed f => trivial
    | perform e k ih => exact ⟨trivial, ih⟩
  exact (Secures.of_every hevery hs (fun _ _ hs hturn => hs.tail hturn)
    fun s e _ hs => hs.tail (.acts s e)).weaken fun _ _ h => h.2

/-- A question that is answered, at some site on the way. -/
theorem secures_reading (c : Call) (d : c.Reply) (hs : ReflTransGen Site.Turn s₀ s) :
    (orDefault d (call c)).Secures Site.Turn Site.Responds (Returns True fun r s' =>
      ∃ s₁, ReflTransGen Site.Turn s₀ s₁ ∧ (s₁.call c).1 = .ok r ∧
        ReflTransGen Site.Turn s₁ s') s := by
  refine Secures.bind (M := fun r s' => ∃ s₁ a, ReflTransGen Site.Turn s₀ s₁ ∧ r = .ok a ∧
    (s₁.call c).1 = .ok a ∧ ReflTransGen Site.Turn s₁ s') ?_ ?_
  · refine .attempt (.call hs (fun _ _ hs hturn => hs.tail hturn) fun s₁ h₁ hF => ?_)
    obtain ⟨a, ha⟩ := Site.reply_of_isOk hF
    rw [ha]
    exact ⟨s₁, a, h₁, rfl, ha, .single (.acts s₁ (.store c))⟩
  · rintro _ s' ⟨s₁, a, h₁, rfl, ha, hs'⟩
    exact ⟨s₁, h₁, ha, hs'⟩

/-- **How a status is read** while others write. -/
theorem secures_compute (h : HealthCheck) (f : Features) {n : Node} (hn : n.isSecondary = true)
    (s : Site) :
    (compute h f n).Secures Site.Turn Site.Responds (Returns True fun st s' =>
      ∃ rs : Readings, rs.Make (.of n f.namespaceRestrictions) s st s') s := by
  rw [compute_eq]
  refine (secures_turns (checkup h n) .refl).bind fun health s₁ h₁ => ?_
  refine (secures_turns (delay h n) h₁).bind fun lag s₂ h₂ => ?_
  rw [reportOn, repositories, Program.bind_assoc]
  refine (secures_reading (.countProjects (.of n f.namespaceRestrictions)) 0 h₂).bind ?_
  rintro total s₃ ⟨t, ht, htotal, h₃⟩
  rw [Program.bind_assoc]
  refine (secures_reading (.countRegistries (.of n f.namespaceRestrictions) .repository .synced)
    0 h₃).bind ?_
  rintro synced s₄ ⟨y, hy, hsynced, h₄⟩
  rw [Program.bind_assoc]
  refine (secures_reading (.countRegistries (.of n f.namespaceRestrictions) .repository .syncFailed)
    0 h₄).bind ?_
  rintro failed s₅ ⟨x, hx, hfailed, h₅⟩
  refine (secures_turns (files _ .lfsObjects) h₅).bind fun lfsObjects s₆ h₆ => ?_
  refine (secures_turns (files _ .attachments) h₆).bind fun attachments s₇ h₇ => ?_
  refine (secures_reading .lastEvent none h₇).bind ?_
  rintro last s₈ ⟨l, hl, hlast, h₈⟩
  dsimp only
  rw [if_pos hn, cursor]
  refine (secures_reading (.getCursor n.id) none h₈).bind ?_
  rintro position s₉ ⟨c, hc, hcursor, h₉⟩
  have hmake {st : NodeStatus} {s' : Site} (htotal' : st.repositories.total = total)
      (hsynced' : st.repositories.synced = synced) (hfailed' : st.repositories.failed = failed)
      (hlast' : st.lastEventId = last.map (·.id))
      (hcursor' : st.cursorEventId = position.map (·.eventId))
      (hs' : ReflTransGen Site.Turn c s') :
      ∃ rs : Readings, rs.Make (.of n f.namespaceRestrictions) s st s' := by
    refine ⟨⟨t, y, x, l, c⟩, ⟨ht, ?_⟩, ⟨hy, ?_⟩, ⟨hx, ?_⟩, ⟨hl, ?_⟩, ⟨hc, ?_⟩, hs'⟩
    · exact htotal'.trans (Except.ok.inj (congrArg Prod.fst (Site.run_of_call_ok htotal))).symm
    · exact hsynced'.trans (Except.ok.inj (congrArg Prod.fst (Site.run_of_call_ok hsynced))).symm
    · exact hfailed'.trans (Except.ok.inj (congrArg Prod.fst (Site.run_of_call_ok hfailed))).symm
    · rw [hlast']
      exact Site.last_of_call hlast
    · rw [hcursor', (Site.cursor_of_call hcursor).2, Option.map_map]
      change (c.store.cursors.get? n.id).map _ = c.store.cursors.get? n.id
      cases c.store.cursors.get? n.id <;> rfl
  cases position with
  | none => exact hmake rfl rfl rfl rfl rfl h₉
  | some position =>
    refine (secures_turns (orDefault none (call (.getEvent position.eventId))) h₉).bind
      fun event s' hs' => ?_
    exact hmake rfl rfl rfl rfl rfl hs'

/-- **When a status contradicts itself.**  Whatever others do with the store while the status of a
secondary is read, as long as no operation of its own fails: the numbers in it were read at five
moments one after another.  The cursor in it is within the log in it exactly when every event that
was appended after the log was read still lay ahead of the cursor when that was read.  Synced and
failed repositories are no more than all exactly when the projects counted both as synced and as
failed, and those counted as one of the two but not among all, are no more than those counted among
all only. -/
theorem consistent_iff {h : HealthCheck} {f : Features} {n : Node} {hist : List Moment}
    {st : NodeStatus} (hs : s.store.Reached) (hn : n.isSecondary = true)
    (hr : (compute h f n).Reaches Site.Turn s hist (.done st) s')
    (hF : ∀ m ∈ hist, m.site.Responds m.effect) :
    ∃ rs : Readings, rs.Make (.of n f.namespaceRestrictions) s st s' ∧
      ((∀ c, st.cursorEventId = some c → c ≤ st.lastEventId.getD 0) ↔
        ∀ c, st.cursorEventId = some c → ∀ id, rs.cursor.store.events.contains id = true →
          rs.log.store.events.contains id = false → c < id) ∧
      (st.repositories.synced + st.repositories.failed ≤ st.repositories.total ↔
        let all := rs.total.store.seen (.of n f.namespaceRestrictions)
        let synced := rs.synced.store.seenIn (.of n f.namespaceRestrictions) .synced
        let failed := rs.failed.store.seenIn (.of n f.namespaceRestrictions) .syncFailed
        (synced ∩ failed).card + ((synced ∪ failed) \ all).card ≤
          (all \ (synced ∪ failed)).card) := by
  obtain ⟨s₁, hlater, rs, hmake⟩ := hr.secures hF (secures_compute h f hn s)
  refine ⟨rs, { hmake with rest := hmake.rest.trans hlater }, ?_, ?_⟩
  · have hlog := hmake.total.1.trans (hmake.synced.1.trans (hmake.failed.1.trans hmake.log.1))
    have hlogSteps := Site.Turn.steps hlog
    have hcursorSteps := Site.Turn.steps (hlog.trans hmake.cursor.1)
    rw [hmake.log.2]
    refine forall_congr' fun c => forall_congr' fun hc => ?_
    rw [hmake.cursor.2] at hc
    exact (hs.gapless.steps hlogSteps).cursor_le_iff (hs.gapless.steps hcursorSteps)
      (hs.tied.steps hcursorSteps) hc
  · rw [hmake.total.2, hmake.synced.2, hmake.failed.2, ← Store.card_seen, ← Store.card_seenIn,
      ← Store.card_seenIn]
    exact Store.card_add_card_le_iff _ _ _

/-! ## A status that contradicts itself -/

/-- A secondary that has copied the only project and consumed the only event. -/
def growingStore : Store :=
  let calls : List Call := [.createNamespace "group" none,
    .createNode ⟨⟨"http", "secondary", 80, ""⟩, .secondary, true, [], 1, 1⟩,
    .createProject ⟨1, "a", "group/a", "default", false, none⟩,
    .recordSyncSuccess 1 1 .repository .epoch, .appendEvent ⟨.updated, 1, none⟩,
    .advanceCursor 1 1]
  calls.foldl (fun s c => (c.run .epoch s).2) .empty

/-- The secondary there. -/
def growingNode : Node :=
  ⟨1, ⟨"http", "secondary", 80, ""⟩, .secondary, true, [], 1, 1, .epoch, .epoch⟩

/-- Its status. -/
def growingStatus : Program NodeStatus :=
  compute (.localTo .standard "http://secondary/") .all growingNode

/-- The status is read as far as the number of all projects. -/
def afterTotal : List Moment × Program NodeStatus × Site :=
  growingStatus.ahead 6 (.start .epoch growingStore [])

/-- Another project is created and copied. -/
def copiedMeanwhile : Site :=
  ((afterTotal.2.2.perform
    (.store (.createProject ⟨1, "b", "group/b", "default", false, none⟩))).2.perform
      (.store (.recordSyncSuccess 1 2 .repository .epoch))).2

/-- The status is read on as far as the log. -/
def afterLog : List Moment × Program NodeStatus × Site := afterTotal.2.1.ahead 5 copiedMeanwhile

/-- Another event is appended. -/
def appendedMeanwhile : Site :=
  (afterLog.2.2.perform (.store (.appendEvent ⟨.updated, 1, none⟩))).2

/-- The event is consumed. -/
def consumedMeanwhile : Site := ((EventLog.runOnce growingNode 5).ahead 9 appendedMeanwhile).2.2

/-- The status is read to its end. -/
def afterCursor : List Moment × Program NodeStatus × Site := afterLog.2.1.ahead 2 consumedMeanwhile

/-- No operation fails, and the status says that two of one project are synced, and that the second
of one event is consumed. -/
theorem reaches_growing : ∃ st,
    growingStatus.Reaches Site.Turn (.start .epoch growingStore [])
      (afterTotal.1 ++ afterLog.1 ++ afterCursor.1) (.done st) afterCursor.2.2 ∧
    (∀ m ∈ afterTotal.1 ++ afterLog.1 ++ afterCursor.1, m.site.Responds m.effect) ∧
    st.repositories.total = 1 ∧ st.repositories.synced = 2 ∧ st.lastEventId = some 1 ∧
    st.cursorEventId = some 2 := by
  have hstart : growingStatus.Reaches Site.Turn (.start .epoch growingStore []) [] _ _ := .start
  have hcopied : growingStatus.Reaches Site.Turn (.start .epoch growingStore []) afterTotal.1
      afterTotal.2.1 copiedMeanwhile := ((hstart.ahead 6).others (.acts _ _)).others (.acts _ _)
  have hconsumed : growingStatus.Reaches Site.Turn (.start .epoch growingStore [])
      (afterTotal.1 ++ afterLog.1) afterLog.2.1 consumedMeanwhile :=
    ((hcopied.ahead 5).others (.acts _ _)).wait
      (turns_ahead (EventLog.runOnce growingNode 5) 9 appendedMeanwhile)
  have hend := hconsumed.ahead 2
  have hvalue : afterCursor.2.1.value?.map (fun st => (st.repositories.total,
      st.repositories.synced, st.lastEventId, st.cursorEventId)) = some (1, 2, some 1, some 2) := by
    decide +kernel
  obtain ⟨st, hst, hnumbers⟩ := Option.map_eq_some_iff.mp hvalue
  simp only [Prod.mk.injEq] at hnumbers
  obtain ⟨htotal, hsynced, hlast, hcursor⟩ := hnumbers
  exact ⟨st, eq_done_of_value? hst ▸ hend, by decide +kernel, htotal, hsynced, hlast, hcursor⟩

theorem consistent_iff_growing : ∃ hist st s',
    growingStore.Reached ∧ growingNode.isSecondary = true ∧
    growingStatus.Reaches Site.Turn (.start .epoch growingStore []) hist (.done st) s' ∧
    (∀ m ∈ hist, m.site.Responds m.effect) ∧
    ∃ rs : Readings, rs.Make (.of growingNode true) (.start .epoch growingStore []) st s' ∧
      ((∀ c, st.cursorEventId = some c → c ≤ st.lastEventId.getD 0) ↔
        ∀ c, st.cursorEventId = some c → ∀ id, rs.cursor.store.events.contains id = true →
          rs.log.store.events.contains id = false → c < id) := by
  obtain ⟨st, hr, hF, -⟩ := reaches_growing
  have hreached : growingStore.Reached := .calls .epoch _ .empty
  obtain ⟨rs, hmake, hcursor, -⟩ := consistent_iff (s := .start .epoch growingStore [])
    (f := .all) (n := growingNode) hreached rfl hr hF
  exact ⟨_, st, _, hreached, rfl, hr, hF, rs, hmake, hcursor⟩

/-- **A status contradicts itself**: its cursor is beyond the end of its log, and more repositories
are synced than there are. -/
theorem contradicts_itself : ∃ hist st s',
    growingStore.Reached ∧ growingNode.isSecondary = true ∧
    growingStatus.Reaches Site.Turn (.start .epoch growingStore []) hist (.done st) s' ∧
    (∀ m ∈ hist, m.site.Responds m.effect) ∧
    ¬ (∀ c, st.cursorEventId = some c → c ≤ st.lastEventId.getD 0) ∧
    ¬ st.repositories.synced + st.repositories.failed ≤ st.repositories.total := by
  obtain ⟨st, hr, hF, htotal, hsynced, hlast, hcursor⟩ := reaches_growing
  refine ⟨_, st, _, .calls .epoch _ .empty, rfl, hr, hF, fun hle => ?_, fun hle => ?_⟩
  · have hbeyond := hle 2 hcursor
    rw [hlast] at hbeyond
    exact absurd hbeyond (by decide)
  · rw [htotal, hsynced] at hle
    omega

end StatusReport

end GeoReplication
