import GeoReplication.Attempt
import GeoReplication.Proofs.Logged
import GeoReplication.Proofs.Program.Run
import GeoReplication.Proofs.Site.Frame
import GeoReplication.Proofs.Store.Candidates
import GeoReplication.Proofs.Store.Reached
import GeoReplication.Proofs.Time.StoredOrder

/-!
# Proofs/Resync/Kept — a request for a copy is kept until a later attempt succeeds

    attempt    ── reads the clock ──▸ ── copies ──▸ ── records success or failure ──▸
    others          request            request          anything else

Attempts to copy one part of a project overlap with each other, with requests and with anything that
is done to other registries.  A success drops the request only if the attempt began no earlier
(`PartRow.succeed`), which the store decides by comparing texts; a failure never does.  And whatever
a row says besides, a part that was requested is a candidate of some category
(`PartRow.Sound.waits`).
-/

namespace GeoReplication

open Time

/-! ## Requested parts are candidates -/

/-- **Whatever became of the last attempt**, a part with a request waits to be copied. -/
theorem PartRow.Sound.waits {row : RegistryRow} {part : Part} (h : (row.part part).Sound)
    (hr : (row.part part).resyncAt.isSome = true) (p : ProjectRow) :
    ∃ c : Category, c.holdsFor p row part = true := by
  rcases h with ⟨hnever, -⟩ | ⟨-, hsynced, -⟩ | ⟨-, hfailed⟩
  · refine ⟨.neverSynced, ?_⟩
    rw [Category.holdsFor, hnever]
    rfl
  · refine ⟨.dirty, ?_⟩
    rw [Category.holdsFor, isDirty, hsynced, hr]
    simp
  · refine ⟨.failed, ?_⟩
    rw [Category.holdsFor, hfailed]
    simp

/-! ## Attempts under way -/

/-- An attempt under way: when it began, and what is left of it. -/
structure Underway where
  started : Instant
  rest : Program SyncState

/-- A site, and the attempts under way there to copy one part of a project for a node. -/
structure Plant where
  site : Site
  attempts : List Underway

/-- What is reported of a part. -/
inductive Report where
  /-- a copy was requested at a time -/
  | requested (time : Instant)
  /-- an attempt that began at a time succeeded -/
  | succeeded (started : Instant)
  /-- an attempt that began at a time failed -/
  | failed (started : Instant)
  /-- the registry was removed -/
  | removed
deriving DecidableEq

section

variable (nodeId projectId : Int) (part : Part)

/-- The operation records how an attempt to copy the part ended. -/
def Call.Records : Call → Prop
  | .recordSyncSuccess n p q _ => n = nodeId ∧ p = projectId ∧ q = part
  | .recordSyncFailure n p q _ => n = nodeId ∧ p = projectId ∧ q = part
  | _ => False

/-- What an operation reports of the part; `started` is when the attempt began that performs it. -/
def Call.report (now started : Instant) : Call → Option Report
  | .requestResync n p q =>
    if n = nodeId ∧ p = projectId ∧ q = part then some (.requested now) else none
  | .recordSyncSuccess n p q _ =>
    if n = nodeId ∧ p = projectId ∧ q = part then some (.succeeded started) else none
  | .recordSyncFailure n p q _ =>
    if n = nodeId ∧ p = projectId ∧ q = part then some (.failed started) else none
  | .deleteRegistry n p => if n = nodeId ∧ p = projectId then some .removed else none
  | .deleteProject p => if p = projectId then some .removed else none
  | .deleteNode n => if n = nodeId then some .removed else none
  | _ => none

/-- What an operation reports with its outcome; one that fails reports nothing. -/
def Call.reported (now started : Instant) (c : Call) (outcome : Except Failure c.Reply) :
    Option Report :=
  if outcome.isOk then c.report nodeId projectId part now started else none

/-- What an operation at a site reports. -/
def Site.report (s : Site) (started : Instant) (c : Call) : Option Report :=
  c.reported nodeId projectId part s.now started (s.call c).1

/-- One step of anyone. -/
inductive Plant.Step : Plant → Option Report → Plant → Prop
  /-- an attempt begins: it reads the clock -/
  | begins {w : Plant} (n : Node) (p : Project) (url : String)
      {k : Instant → Program SyncState} (hnode : n.id = nodeId) (hproject : p.id = projectId)
      (hattempt : Attempt.part n p url part = .perform .clock k) :
      Step w none { w with attempts := ⟨w.site.now, k w.site.now⟩ :: w.attempts }
  /-- the copy of an attempt ends, well or not -/
  | copied {w : Plant} (before : List Underway) {after : List Underway} {started : Instant}
      {url : String} {p : Project} {q : Part} {k : Except Failure Unit → Program SyncState}
      (answer : Except Failure Unit)
      (hattempts : w.attempts = before ++ ⟨started, .perform (.fetch url p q) k⟩ :: after) :
      Step w none { w with attempts := before ++ ⟨started, k answer⟩ :: after }
  /-- an attempt records how it ended -/
  | records {w : Plant} (before : List Underway) {after : List Underway} {started : Instant}
      {c : Call} {k : Except Failure c.Reply → Program SyncState}
      (hattempts : w.attempts = before ++ ⟨started, .perform (.store c) k⟩ :: after) :
      Step w (w.site.report nodeId projectId part started c)
        ⟨(w.site.call c).2, before ++ ⟨started, k (w.site.call c).1⟩ :: after⟩
  /-- any other operation: a request, or anything that is not for attempts to do -/
  | others {w : Plant} {c : Call} (hc : ¬ c.Records nodeId projectId part) :
      Step w (w.site.report nodeId projectId part w.site.now c)
        { w with site := (w.site.call c).2 }
  /-- anything that leaves the store alone: the clock is set, jobs come and go -/
  | elsewhere {w : Plant} (site : Site) (hstore : site.store = w.site.store) :
      Step w none { w with site }

/-- A plant with what was reported so far. -/
abbrev Plant.Runs : Plant → List Report → Plant → Prop :=
  Logged (fun w w' => Step nodeId projectId part w none w')
    fun w r w' => Step nodeId projectId part w (some r) w'

end

/-! ## What reports say of the row -/

/-- What a report says of the half of the row that belongs to the part. -/
def Report.Turns : Option Report → PartRow → PartRow → Prop
  | none, r, r' => r' = r
  | some (requested t), r, r' => r' = r.requestResync t.stored
  | some (succeeded started), r, r' => ∃ time, r' = r.succeed time started.stored
  | some (failed _), r, r' => ∃ time reason, r' = r.fail time reason
  | some removed, _, _ => False

section

variable {nodeId projectId : Int} {part : Part}

/-- The operation names the start of the attempt that performs it. -/
def Call.Names (started : Instant) : Call → Prop
  | .recordSyncSuccess _ _ _ st => st = started
  | _ => True

theorem Call.report_of_not_touches {c : Call} (hc : ¬ c.Touches) (now started : Instant) :
    c.report nodeId projectId part now started = none := by
  cases c <;> first | exact absurd trivial hc | rfl

theorem Call.reported_eq_none {c : Call} {now started : Instant}
    (h : c.report nodeId projectId part now started = none) (outcome : Except Failure c.Reply) :
    c.reported nodeId projectId part now started outcome = none := by
  rw [reported, h, ite_self]

/-- A half that an operation with no report leaves as it is. -/
theorem Report.turns_same {report : Option Report} {t t' : Store.Table (Int × Int) RegistryRow}
    {key : Int × Int} {row : RegistryRow} (hreport : report = none)
    (hsame : t.get? key = some row → t'.get? key = some row) (hrow : t.get? key = some row) :
    ∃ row', t'.get? key = some row' ∧ Turns report (row.part part) (row'.part part) := by
  rw [hreport]
  exact ⟨row, hsame hrow, rfl⟩

/-- A half, or another one, that an operation changes. -/
theorem Report.turns_rewrites {now : Instant} {n p : Int} {q : Part} {f : PartRow → PartRow}
    {s s' : Store} {row : RegistryRow} {r : Report}
    (hw : Store.Rewrites now (n, p) q f s s')
    (hrow : s.registries.get? (nodeId, projectId) = some row)
    (hf : n = nodeId ∧ p = projectId ∧ q = part →
      Turns (some r) (row.part part) (f (row.part part))) :
    ∃ row', s'.registries.get? (nodeId, projectId) = some row' ∧
      Turns (if n = nodeId ∧ p = projectId ∧ q = part then some r else none) (row.part part)
        (row'.part part) := by
  obtain ⟨row', hrow', hhalves⟩ := hw.halves hrow
  refine ⟨row', hrow', ?_⟩
  rw [hhalves]
  by_cases hsame : n = nodeId ∧ p = projectId ∧ q = part
  · obtain ⟨rfl, rfl, rfl⟩ := hsame
    rw [if_pos ⟨rfl, rfl, rfl⟩, if_pos ⟨rfl, rfl⟩]
    exact hf ⟨rfl, rfl, rfl⟩
  · rw [if_neg hsame, if_neg]
    · rfl
    · rintro ⟨hkey, rfl⟩
      obtain ⟨rfl, rfl⟩ := Prod.mk.inj hkey
      exact hsame ⟨rfl, rfl, rfl⟩

/-- **One operation and one half of a row**: it becomes what the report says. -/
theorem Call.turns {now started : Instant} {s : Store} {c : Call} {row : RegistryRow}
    (hnames : c.Records nodeId projectId part → c.Names started)
    (hkept : c.reported nodeId projectId part now started (c.run now s).1 ≠ some .removed)
    (hrow : s.registries.get? (nodeId, projectId) = some row) :
    ∃ row', (c.run now s).2.registries.get? (nodeId, projectId) = some row' ∧
      Report.Turns (c.reported nodeId projectId part now started (c.run now s).1)
        (row.part part) (row'.part part) := by
  by_cases hc : c.Touches
  · cases c with
    | createProject p =>
      refine Report.turns_same (reported_eq_none rfl _) ?_ hrow
      rcases Store.run_createProject now p s with hrun | ⟨_, hrun, -⟩ <;> rw [hrun] <;> exact id
    | touchProject project q time =>
      refine Report.turns_same (reported_eq_none rfl _) ?_ hrow
      rcases Store.run_touchProject now project q time s with hrun | hrun <;> rw [hrun] <;> exact id
    | expireRepositoryCache id =>
      exact Report.turns_same (reported_eq_none rfl _) (fun h => h) hrow
    | deleteProject id =>
      by_cases hid : id = projectId
      · exact absurd (if_pos hid) hkept
      · refine Report.turns_same (reported_eq_none ?_ _) (fun h => ?_) hrow
        · exact if_neg hid
        · exact Store.get?_filter_of_pos h (decide_eq_true fun h => hid h.symm)
    | deleteNode id =>
      by_cases hid : id = nodeId
      · exact absurd (if_pos hid) hkept
      · refine Report.turns_same (reported_eq_none ?_ _) (fun h => ?_) hrow
        · exact if_neg hid
        · exact Store.get?_filter_of_pos h (decide_eq_true fun h => hid h.symm)
    | deleteRegistry n p =>
      by_cases hkey : n = nodeId ∧ p = projectId
      · exact absurd (if_pos hkey) hkept
      · refine Report.turns_same (reported_eq_none ?_ _) (fun h => ?_) hrow
        · exact if_neg hkey
        · refine Store.get?_filter_of_pos h (decide_eq_true fun hsame => hkey ?_)
          exact ⟨(Prod.mk.inj hsame).1.symm, (Prod.mk.inj hsame).2.symm⟩
    | recordSyncSuccess n p q time =>
      rcases settles_recordSyncSuccess now n p q s time with ⟨e, hrun⟩ | ⟨r, hok, hw⟩
      · rw [hrun]
        exact Report.turns_same rfl (fun h => h) hrow
      · rw [hok]
        refine Report.turns_rewrites hw hrow fun hsame => ⟨now.stored, ?_⟩
        rw [show time = started from hnames hsame]
    | recordSyncFailure n p q reason =>
      rcases settles_recordSyncFailure now n p q s reason with ⟨e, hrun⟩ | ⟨r, hok, hw⟩
      · rw [hrun]
        exact Report.turns_same rfl (fun h => h) hrow
      · rw [hok]
        exact Report.turns_rewrites hw hrow fun _ => ⟨now.stored, reason, rfl⟩
    | requestResync n p q =>
      rcases settles_requestResync now n p q s with ⟨e, hrun⟩ | ⟨r, hok, hw⟩
      · rw [hrun]
        exact Report.turns_same rfl (fun h => h) hrow
      · rw [hok]
        exact Report.turns_rewrites hw hrow fun _ => rfl
    | _ => exact hc.elim
  · obtain ⟨hregistries, -⟩ := Prod.mk.inj (records_run hc now s)
    refine Report.turns_same (reported_eq_none (report_of_not_touches hc now started) _) ?_ hrow
    rw [hregistries]
    exact id

theorem Site.turns {s : Site} {started : Instant} {c : Call} {row : RegistryRow}
    (hnames : c.Records nodeId projectId part → c.Names started)
    (hkept : s.report nodeId projectId part started c ≠ some .removed)
    (hrow : s.store.registries.get? (nodeId, projectId) = some row) :
    ∃ row', (s.call c).2.store.registries.get? (nodeId, projectId) = some row' ∧
      Report.Turns (s.report nodeId projectId part started c) (row.part part)
        (row'.part part) := by
  rw [report] at hkept ⊢
  rcases hfault : Fault.ask c.kind s.faults with ⟨_ | e, faults⟩
  · have hcall : s.call c = ((c.run s.now s.store).1,
        { s with store := (c.run s.now s.store).2, faults }) := by rw [call, hfault]
    rw [hcall] at hkept ⊢
    exact Call.turns hnames hkept hrow
  · have hcall : s.call c = (.error (.error e), { s with faults }) := by rw [call, hfault]
    rw [hcall]
    exact Report.turns_same rfl id hrow

/-- Whoever reports a request has written it into the row. -/
theorem Site.requested {s : Site} {started t : Instant} {c : Call}
    (h : s.report nodeId projectId part started c = some (.requested t)) :
    ∃ row, (s.call c).2.store.registries.get? (nodeId, projectId) = some row ∧
      (row.part part).resyncAt = some t.stored := by
  rw [report, Call.reported] at h
  split at h
  · next hok =>
    obtain ⟨r, hreply⟩ := reply_of_isOk hok
    have hrun := run_of_call_ok hreply
    cases c with
    | requestResync n p q =>
      rw [Call.report] at h
      split at h
      · next hsame =>
        obtain ⟨rfl, rfl, rfl⟩ := hsame
        cases h
        rcases Call.settles_requestResync s.now n p q s.store with ⟨e, herror⟩ | ⟨-, -, hw⟩
        · rw [hrun] at herror
          cases herror
        · rw [hrun] at hw
          exact ⟨_, by rw [hw.rows, if_pos rfl], by rw [RegistryRow.part_modify]; rfl⟩
      · cases h
    | _ => simp [Call.report] at h
  · cases h

/-! ## Attempts know when they began -/

variable (nodeId projectId part) in
/-- What an attempt may do that began at `started`. -/
def Underway.Does (started : Instant) : Effect → Prop
  | .fetch _ _ _ => True
  | .store c => c.Records nodeId projectId part ∧ c.Names started
  | _ => False

variable (nodeId projectId part) in
/-- The attempt only copies and records, and names the time at which it began. -/
def Underway.IsHonest (a : Underway) : Prop :=
  a.rest.Every (Underway.Does nodeId projectId part a.started) fun _ => True

theorem Underway.isHonest_begun {n : Node} {p : Project} {url : String}
    {k : Instant → Program SyncState} (hnode : n.id = nodeId) (hproject : p.id = projectId)
    (h : Attempt.part n p url part = .perform .clock k) (started : Instant) :
    (Underway.mk started (k started)).IsHonest nodeId projectId part := by
  cases h
  have hcopy : (Program.fetch url p part).Every (Does nodeId projectId part started)
      fun _ => True := ⟨trivial, fun r => .ofExcept r⟩
  change Program.Every _ _ ((Program.fetch url p part).attempt >>= _)
  refine Program.Every.bind hcopy.attempt fun r _ => ?_
  rcases r with e | ⟨⟩
  · exact Program.Every.bind (.call ⟨⟨hnode, hproject, rfl⟩, trivial⟩) fun _ _ => trivial
  · exact Program.Every.bind (.call ⟨⟨hnode, hproject, rfl⟩, rfl⟩) fun _ _ => trivial

namespace Plant

variable {w w' start : Plant} {r : Option Report}

variable (nodeId projectId part) in
/-- All attempts under way are honest, and the rows of the store are sound. -/
structure IsHonest (w : Plant) : Prop where
  attempts : ∀ a ∈ w.attempts, a.IsHonest nodeId projectId part
  sound : w.site.store.Sound

/-- Whatever it is answered, an honest attempt stays one. -/
theorem goesOn {before after : List Underway} {started : Instant} {e : Effect}
    {k : e.Reply → Program SyncState}
    (h : ∀ a ∈ before ++ ⟨started, .perform e k⟩ :: after, a.IsHonest nodeId projectId part)
    (answer : e.Reply) :
    ∀ a ∈ before ++ ⟨started, k answer⟩ :: after, a.IsHonest nodeId projectId part := by
  intro a ha
  rcases List.mem_append.mp ha with ha | ha
  · exact h a (List.mem_append_left _ ha)
  · rcases List.mem_cons.mp ha with rfl | ha
    · have hthis := h ⟨started, .perform e k⟩ (by simp)
      exact hthis.2 answer
    · exact h a (by simp [ha])

theorem sound_call {s : Site} (h : s.store.Sound) (c : Call) : (s.call c).2.store.Sound := by
  rcases s.store_call c with hsame | hrun
  · rwa [hsame]
  · rw [hrun]
    exact h.run s.now c

theorem IsHonest.step (hw : w.IsHonest nodeId projectId part)
    (h : Step nodeId projectId part w r w') : w'.IsHonest nodeId projectId part := by
  cases h with
  | begins n p url hnode hproject hattempt =>
    refine ⟨fun a ha => ?_, hw.sound⟩
    rcases List.mem_cons.mp ha with rfl | ha
    · exact Underway.isHonest_begun hnode hproject hattempt _
    · exact hw.attempts a ha
  | copied before answer hattempts =>
    exact ⟨goesOn (hattempts ▸ hw.attempts) answer, hw.sound⟩
  | records before hattempts =>
    exact ⟨goesOn (hattempts ▸ hw.attempts) _, sound_call hw.sound _⟩
  | others hc => exact ⟨hw.attempts, sound_call hw.sound _⟩
  | elsewhere site hstore => exact ⟨hw.attempts, hstore ▸ hw.sound⟩

/-- **One step and one half of a row**: it becomes what the report says. -/
theorem IsHonest.turns {row : RegistryRow} (hw : w.IsHonest nodeId projectId part)
    (h : Step nodeId projectId part w r w') (hr : r ≠ some .removed)
    (hrow : w.site.store.registries.get? (nodeId, projectId) = some row) :
    ∃ row', w'.site.store.registries.get? (nodeId, projectId) = some row' ∧
      Report.Turns r (row.part part) (row'.part part) := by
  cases h with
  | begins => exact ⟨row, hrow, rfl⟩
  | copied => exact ⟨row, hrow, rfl⟩
  | @records before after started c k hattempts =>
    have hthis := hw.attempts ⟨started, .perform (.store c) k⟩ (by simp [hattempts])
    exact Site.turns (fun _ => hthis.1.2) hr hrow
  | others hc => exact Site.turns (fun h => absurd h hc) hr hrow
  | elsewhere site hstore => exact ⟨row, hstore ▸ hrow, rfl⟩

/-- A step that reports a request has written it into the row. -/
theorem Step.requested {t : Instant} (h : Step nodeId projectId part w (some (.requested t)) w') :
    ∃ row, w'.site.store.registries.get? (nodeId, projectId) = some row ∧
      (row.part part).resyncAt = some t.stored := by
  generalize hr : some (Report.requested t) = r at h
  cases h with
  | begins => cases hr
  | copied => cases hr
  | records before hattempts => exact Site.requested hr.symm
  | others hc => exact Site.requested hr.symm
  | elsewhere => cases hr

end Plant

section

variable {w start : Plant} {log : List Report}

/-- An operation that is not for attempts to do is a step. -/
theorem Plant.Runs.call (hr : Runs nodeId projectId part start log w) {c : Call}
    (hc : ¬ c.Records nodeId projectId part) :
    ∃ more, Runs nodeId projectId part start (log ++ more)
      { w with site := (w.site.call c).2 } := by
  have hstep := Step.others (w := w) hc
  cases hreport : w.site.report nodeId projectId part w.site.now c with
  | none =>
    rw [hreport] at hstep
    exact ⟨[], by rw [List.append_nil]; exact hr.quiet hstep⟩
  | some r =>
    rw [hreport] at hstep
    exact ⟨[r], hr.act hstep⟩

/-- These are steps of others. -/
theorem Plant.Runs.meanwhile (hr : Runs nodeId projectId part start log w) (c : Copying) :
    ∃ more, Runs nodeId projectId part start (log ++ more)
      { w with site := (w.site.meanwhile c).2 } := by
  obtain ⟨touched, htouched, hdone⟩ := w.site.meanwhile_snd c
  have hmid : ∃ more,
      Runs nodeId projectId part start (log ++ more) { w with site := touched } := by
    rcases htouched with rfl | rfl
    · exact ⟨[], by rwa [List.append_nil]⟩
    · exact hr.call id
  obtain ⟨more, hmid⟩ := hmid
  rcases hdone with hdone | ⟨n, -, hdone⟩
  · rw [hdone]
    exact ⟨more, hmid⟩
  · rw [hdone]
    obtain ⟨more', hdone⟩ := Runs.call hmid (c := .requestResync n c.project.id c.part) id
    exact ⟨more ++ more', by rw [← List.append_assoc]; exact hdone⟩

/-- **The copy of an attempt**, as the mirror of a site carries it out, is made of such steps. -/
theorem Plant.Runs.fetch {before after : List Underway} {started : Instant} {url : String}
    {p : Project} {q : Part} {k : Except Failure Unit → Program SyncState}
    (hr : Runs nodeId projectId part start log w)
    (hattempts : w.attempts = before ++ ⟨started, .perform (.fetch url p q) k⟩ :: after) :
    ∃ more, Runs nodeId projectId part start (log ++ more)
      ⟨(w.site.perform (.fetch url p q)).2,
        before ++ ⟨started, k (w.site.perform (.fetch url p q)).1⟩ :: after⟩ := by
  obtain ⟨c, s, hbegun⟩ : ∃ c s, w.site.beginFetch url p q = (c, s) := ⟨_, _, rfl⟩
  have hstore : (s.note c false).store = w.site.store := by
    rw [show s = (w.site.beginFetch url p q).2 by rw [hbegun]]
    rfl
  have hend : (s.endFetch c).2 = ((s.note c false).meanwhile c).2 := by
    rw [Site.endFetch]
    rcases (s.note c false).meanwhile c with ⟨e | ⟨⟩, s'⟩
    · rfl
    · cases c.rule.error <;> rfl
  have hperform : w.site.perform (.fetch url p q) = s.endFetch c := by
    rw [Site.perform, hbegun]
  obtain ⟨more, hdone⟩ := Runs.meanwhile (hr.quiet (.elsewhere _ hstore)) c
  refine ⟨more, ?_⟩
  rw [hperform, hend]
  exact hdone.quiet (.copied before _ hattempts)

end

/-! ## Requests that are kept -/

/-- What leaves a request made at `t` the latest one, and unanswered: failures, and successes of
attempts that began before it, to the microsecond. -/
def Report.Spares (t : Instant) : Report → Prop
  | requested _ => False
  | succeeded started => started.IsSortable ∧ started.toMicros < t.toMicros
  | failed _ => True
  | removed => False

/-- A success keeps a request that comes after the start of its attempt. -/
theorem PartRow.resyncAt_succeed {r : PartRow} {time started requested : String}
    (h : r.resyncAt = some requested) (hlater : started < requested) :
    (r.succeed time started).resyncAt = some requested := by
  change r.resyncAt.filter (fun requested => decide (started < requested)) = some requested
  rw [h, Option.filter_some, if_pos (decide_eq_true hlater)]

/-- A success drops a request only if the attempt began no earlier. -/
theorem Report.Turns.keeps {r : Report} {t : Instant} {half half' : PartRow}
    (h : Turns (some r) half half') (hr : r.Spares t) (ht : t.IsSortable)
    (hkept : half.resyncAt = some t.stored) : half'.resyncAt = some t.stored := by
  cases r with
  | requested _ => exact hr.elim
  | removed => exact hr.elim
  | succeeded started =>
    obtain ⟨time, rfl⟩ := h
    have hlater : started.stored < t.stored := (Instant.stored_lt_iff hr.1 ht).mpr hr.2
    exact PartRow.resyncAt_succeed hkept hlater
  | failed started =>
    obtain ⟨time, reason, rfl⟩ := h
    exact hkept

namespace Plant

variable {w w' start : Plant}

theorem Runs.isHonest {log : List Report} (hr : Runs nodeId projectId part start log w)
    (hstart : start.IsHonest nodeId projectId part) : w.IsHonest nodeId projectId part :=
  hr.inv (P := fun _ w => w.IsHonest nodeId projectId part) hstart (fun h hs => h.step hs)
    fun h hs => h.step hs

/-- A request stays in the row as long as it is the latest and unanswered. -/
theorem Runs.keeps {t : Instant} {after : List Report} (ht : t.IsSortable)
    (hw : w.IsHonest nodeId projectId part)
    (hrow : ∃ row, w.site.store.registries.get? (nodeId, projectId) = some row ∧
      (row.part part).resyncAt = some t.stored)
    (hr : Runs nodeId projectId part w after w') (hafter : ∀ r ∈ after, r.Spares t) :
    ∃ row, w'.site.store.registries.get? (nodeId, projectId) = some row ∧
      (row.part part).resyncAt = some t.stored := by
  have hinv := hr.inv (P := fun log w => w.IsHonest nodeId projectId part ∧
    ((∀ r ∈ log, r.Spares t) →
      ∃ row, w.site.store.registries.get? (nodeId, projectId) = some row ∧
        (row.part part).resyncAt = some t.stored)) ⟨hw, fun _ => hrow⟩ ?_ ?_
  · exact hinv.2 hafter
  · rintro log w w' ⟨hw, hkept⟩ hstep
    refine ⟨hw.step hstep, fun hlog => ?_⟩
    obtain ⟨row, hrow, hresync⟩ := hkept hlog
    obtain ⟨row', hrow', hturns⟩ := hw.turns hstep (by rintro ⟨⟩) hrow
    exact ⟨row', hrow', hturns ▸ hresync⟩
  · rintro log w r w' ⟨hw, hkept⟩ hstep
    refine ⟨hw.step hstep, fun hlog => ?_⟩
    have hspares : r.Spares t := hlog r (by simp)
    obtain ⟨row, hrow, hresync⟩ := hkept fun r hr => hlog r (List.mem_append_left _ hr)
    obtain ⟨row', hrow', hturns⟩ := hw.turns hstep (by rintro ⟨⟩; exact hspares) hrow
    exact ⟨row', hrow', hturns.keeps hspares ht hresync⟩

end Plant

/-- Failures change no request of any part. -/
theorem resyncAt_recordSyncFailure {now : Instant} {n p : Int} {q : Part} {reason : String}
    {s : Store} {key : Int × Int} {row : RegistryRow} (hrow : s.registries.get? key = some row) :
    ∃ row', ((Call.recordSyncFailure n p q reason).run now s).2.registries.get? key = some row' ∧
      ∀ part, (row'.part part).resyncAt = (row.part part).resyncAt := by
  rcases Call.settles_recordSyncFailure now n p q s reason with ⟨e, hrun⟩ | ⟨r, -, hw⟩
  · rw [hrun]
    exact ⟨row, hrow, fun _ => rfl⟩
  · obtain ⟨row', hrow', hhalves⟩ := hw.halves hrow
    refine ⟨row', hrow', fun part => ?_⟩
    rw [hhalves]
    split <;> rfl

/-- **No request for a copy is lost.**  As long as the registry is not removed and no attempt has
succeeded since the latest request that began at or after it, to the microsecond, the row holds the
request, and the project is returned by the query of some category to every node that sees it on a
listed storage, the wiki if wikis are copied and the project has one; and no failure drops a
request. -/
theorem request_kept {start w : Plant} {t : Instant} {before after : List Report}
    (hstart : start.site.store.Reached) (hnone : start.attempts = [])
    (hr : Plant.Runs nodeId projectId part start (before ++ .requested t :: after) w)
    (hlatest : ∀ t', .requested t' ∉ after) (hthere : .removed ∉ after) (ht : t.IsSortable)
    (hbegan : ∀ started, .succeeded started ∈ after →
      started.IsSortable ∧ started.toMicros < t.toMicros) :
    (∃ row p, w.site.store.registries.get? (nodeId, projectId) = some row ∧
      w.site.store.projects.get? projectId = some p ∧
      (row.part part).resyncAt = some t.stored ∧
      ∀ f : CandidateFilter, f.scope.nodeId = nodeId → w.site.store.admits f p = true →
        p.hasPart f.includeWikis part = true →
        ∃ c, ∀ afterId < projectId, ∀ limit, w.site.store.projects.rows.length ≤ limit →
          projectId ∈ w.site.store.candidates f c afterId limit) ∧
    ∀ now n p q reason key row, w.site.store.registries.get? key = some row →
      ∃ row', ((Call.recordSyncFailure n p q reason).run now w.site.store).2.registries.get? key =
          some row' ∧
        ∀ part, (row'.part part).resyncAt = (row.part part).resyncAt := by
  refine ⟨?_, fun now n p q reason key row hrow => resyncAt_recordSyncFailure hrow⟩
  have hhonest : start.IsHonest nodeId projectId part :=
    ⟨fun a ha => absurd (hnone ▸ ha) List.not_mem_nil, hstart.sound⟩
  obtain ⟨w₁, w₂, hbefore, hstep, hrest⟩ := hr.split_cons
  have hw₂ : w₂.IsHonest nodeId projectId part :=
    (Plant.Runs.isHonest hbefore hhonest).step hstep
  have hafter : ∀ r ∈ after, r.Spares t := by
    rintro (t' | started | started | _) hr
    · exact hlatest t' hr
    · exact hbegan started hr
    · trivial
    · exact hthere hr
  obtain ⟨row, hrow, hresync⟩ := Plant.Runs.keeps ht hw₂ hstep.requested hrest hafter
  have hsound := (Plant.Runs.isHonest hrest hw₂).sound
  obtain ⟨p, hp⟩ := Option.isSome_iff_exists.mp (hsound.projects _ row hrow)
  refine ⟨row, p, hrow, hp, hresync, fun f hnode hadmits hpart => ?_⟩
  obtain ⟨c, hc⟩ := (hsound.rows _ row hrow part).waits (hresync ▸ rfl) p
  refine ⟨c, fun afterId hafterId limit hlimit => ?_⟩
  refine Store.mem_candidates (Store.mem_allCandidates.mpr ⟨p, hp, ?_⟩) hafterId hlimit
  rw [Store.isCandidate, hadmits, hnode, hrow, Category.holds_of_holdsFor hpart hc]
  rfl

end

/-- A site with a node and a project of which nothing was copied yet. -/
def newcomerSite : Site :=
  let s := ((Call.createNamespace "group" none).run .epoch .empty).2
  let s := ((Call.createNode ⟨⟨"http", "secondary", 80, ""⟩, .secondary, true, [], 1, 1⟩).run
    .epoch s).2
  .start .epoch ((Call.createProject ⟨1, "p", "group/p", "default", false, none⟩).run .epoch s).2 []

/-- A request that is made while an attempt is under way outlives the success of that attempt. -/
theorem request_kept_overtaken : ∃ w,
    Plant.Runs 1 1 .repository ⟨newcomerSite, []⟩ [.requested ⟨1, 0⟩, .succeeded .epoch] w ∧
    ∃ row, w.site.store.registries.get? (1, 1) = some row ∧
      row.repository.resyncAt = some (Instant.mk 1 0).stored ∧
      ∃ c, ∀ afterId < 1, ∀ limit, w.site.store.projects.rows.length ≤ limit →
        1 ∈ w.site.store.candidates ⟨⟨1, false⟩, ["default"], false⟩ c afterId limit := by
  let n : Node := ⟨1, ⟨"http", "secondary", 80, ""⟩, .secondary, true, [], 1, 1, .epoch, .epoch⟩
  let p : Project := ⟨1, 1, "p", "group/p", "default", false, none, none, none, .epoch⟩
  have hstart : Plant.Runs 1 1 .repository ⟨newcomerSite, []⟩ [] _ := .start
  have hbegun := hstart.quiet (.begins n p "http://primary" rfl rfl rfl)
  have hlater := hbegun.quiet (.elsewhere { newcomerSite with now := ⟨1, 0⟩ } rfl)
  have hrequested : Plant.Runs 1 1 .repository _ ([] ++ [.requested ⟨1, 0⟩]) _ :=
    hlater.act (.others (c := .requestResync 1 1 .repository) id)
  have hcopied := hrequested.quiet (.copied [] (.ok ()) rfl)
  have hr : Plant.Runs 1 1 .repository _ ([] ++ .requested ⟨1, 0⟩ :: [.succeeded .epoch]) _ :=
    hcopied.act (.records [] (c := .recordSyncSuccess 1 1 .repository .epoch) rfl)
  have hreached : newcomerSite.store.Reached := .call _ _ (.call _ _ (.call _ _ .empty))
  have hbegan : ∀ started, Report.succeeded started ∈ [Report.succeeded .epoch] →
      started.IsSortable ∧ started.toMicros < (Instant.mk 1 0).toMicros := by
    intro started hs
    obtain rfl : started = .epoch := by simpa using hs
    decide +kernel
  obtain ⟨row, project, hrow, hproject, hresync, hwaits⟩ :=
    (request_kept hreached rfl hr (by simp) (by simp) (by decide +kernel) hbegan).1
  refine ⟨_, hr, row, hrow, hresync, hwaits _ rfl ?_ rfl⟩
  cases hproject
  decide +kernel

end GeoReplication
