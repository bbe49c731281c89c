import GeoReplication.Attempt
import GeoReplication.Proofs.Status.AddsUp
import GeoReplication.Proofs.Store.Nodes

/-!
# Proofs/Replication/Recorded — what an attempt leaves in the store

    repository  fetched at s.now … recorded at t₁   ── succeed or fail ──▸  first half of the row
    wiki        fetched at t₁    … recorded at t₂   ── succeed or fail ──▸  second half

The mirror decides how each copy ends, and each outcome goes into its own half of the one row of the
node for the project (`achieves_part`).  The wiki's has no say in what becomes of the repository's,
nor the other way round (`attempt_records`).
-/

namespace GeoReplication

open Program GeoReplication.Time

/-! ## What an outcome makes of a half -/

namespace Attempt

/-- The reason given is the longest beginning of a text that has no more than 255 characters. -/
structure IsReason (text reason : String) : Prop where
  begins : reason.toList <+: text.toList
  short : reason.length ≤ 255
  longest : ∀ cs, cs <+: text.toList → cs.length ≤ 255 → cs <+: reason.toList

theorem isReason_truncate (text : String) : IsReason text (truncate text) where
  begins := by
    rw [truncate, String.toList_ofList]
    exact List.take_prefix _ _
  short := by
    rw [truncate, String.length_ofList]
    exact List.length_take_le _ _
  longest cs hcs hshort := by
    rw [truncate, String.toList_ofList]
    exact List.prefix_take_iff.mpr ⟨hcs, hshort⟩

/-- The state after a copy that ended with no error, or with one. -/
def endState : Option Error → SyncState
  | none => .synced
  | some _ => .syncFailed

end Attempt

namespace PartRow

/-- The row after an attempt that began at `started` and ended at `time`. -/
def attempted (r : PartRow) (outcome : Option Error) (started time : Instant) : PartRow :=
  match outcome with
  | none => r.succeed time.stored started.stored
  | some e => r.fail time.stored (Attempt.truncate e.message)

variable {r : PartRow} {outcome : Option Error} {started time : Instant}

theorem state_attempted :
    (r.attempted outcome started time).state = (Attempt.endState outcome).word := by
  cases outcome <;> rfl

/-- A failure keeps the last success, and says why. -/
theorem attempted_of_error {e : Error} (h : outcome = some e) :
    (r.attempted outcome started time).successfulAt = r.successfulAt ∧
      ∃ reason, (r.attempted outcome started time).failure = some reason ∧
        Attempt.IsReason e.message reason := by
  subst h
  exact ⟨rfl, _, rfl, Attempt.isReason_truncate e.message⟩

end PartRow

/-- The row that was rewritten, as another change finds it. -/
theorem Store.Rewrites.rowOrFresh {now : Instant} {key : Int × Int} {part : Part}
    {g : PartRow → PartRow} {store store' : Store} (h : Store.Rewrites now key part g store store')
    (later : Instant) : store'.rowOrFresh later key = (store.rowOrFresh now key).modify part g := by
  rw [Store.rowOrFresh, h.rows, if_pos rfl]
  rfl

/-! ## Copies -/

namespace Site

variable {s : Site} {id : Int}

/-- Mirrors do nothing but take time, and end. -/
def CopiesOnly (s : Site) : Prop := ∀ r ∈ s.rules, r.touch = false ∧ r.resyncNode = none

instance (s : Site) : Decidable s.CopiesOnly :=
  inferInstanceAs (Decidable (∀ r ∈ s.rules, r.touch = false ∧ r.resyncNode = none))

/-- The rule by which the repository of a project is copied next. -/
def repositoryRule (s : Site) (id : Int) : MirrorRule :=
  (MirrorRule.choose id .repository s.rules).1

/-- The rule by which its wiki is copied after that. -/
def wikiRule (s : Site) (id : Int) : MirrorRule :=
  (MirrorRule.choose id .wiki (MirrorRule.choose id .repository s.rules).2).1

/-- When the copy of the repository ends. -/
def repositoryEnd (s : Site) (id : Int) : Instant := s.now.addMillis (s.repositoryRule id).advance

/-- When the copy of the wiki ends. -/
def wikiEnd (s : Site) (id : Int) : Instant :=
  (s.repositoryEnd id).addMillis (s.wikiRule id).advance

/-- How the copy of a part ends, unless it is well. -/
def outcome (s : Site) (id : Int) : Part → Option Error
  | .repository => (s.repositoryRule id).error
  | .wiki => (s.wikiRule id).error

/-- A copy takes the time of its rule and ends as that says; the rules that are left copy only. -/
theorem CopiesOnly.fetch (h : s.CopiesOnly) (part : Part) (primaryUrl : String) {p : Project}
    (hp : p.id = id) :
    let rule := (MirrorRule.choose id part s.rules).1
    ∃ s', s.perform (.fetch primaryUrl p part) =
        (rule.error.elim (.ok ()) fun e => .error (.error e), s') ∧
      s'.store = s.store ∧ s'.now = s.now.addMillis rule.advance ∧
      s'.rules = (MirrorRule.choose id part s.rules).2 ∧ s'.CopiesOnly := by
  subst hp
  obtain ⟨⟨htouch, hresync⟩, hrules⟩ := choose_keeps
    (P := fun r => r.touch = false ∧ r.resyncNode = none) ⟨rfl, rfl⟩ (fun _ _ hr => hr) p.id part h
  refine ⟨(s.beginFetch primaryUrl p part).2.note (s.beginFetch primaryUrl p part).1 false, ?_, rfl,
    rfl, rfl, hrules⟩
  simp only [perform, endFetch, meanwhile, beginFetch, htouch, hresync]
  cases (MirrorRule.choose p.id part s.rules).1.error <;> rfl

end Site

namespace Attempt

variable {s : Site} {f : Features} {nodeId projectId : Int}

/-- A look into the store that is answered. -/
theorem achieves_look {c : Call} (hc : c.writes = []) :
    Achieves Site.Responds (Program.call c) s fun r s' =>
      (c.run s.now s.store).1 = .ok r ∧ ∃ faults, s' = { s with faults } := by
  refine .call fun hwell => ?_
  obtain ⟨r, hr⟩ := Site.reply_of_isOk hwell
  refine ⟨r, hr, congrArg Prod.fst (Site.run_of_call_ok hr), ?_⟩
  have hsame := s.store_call_of_writes_nil hc
  rw [Site.call] at hsame ⊢
  split at hsame
  · exact ⟨_, rfl⟩
  · next faults _ =>
    refine ⟨faults, ?_⟩
    dsimp only at hsame ⊢
    rw [hsame]

/-- An outcome that is recorded. -/
theorem achieves_record {c : Call} {key : Int × Int} {part : Part} {g : PartRow → PartRow}
    (hc : c.rewrite? s.now = some (key, part, g)) :
    Achieves Site.Responds (Program.call c) s fun _ s' =>
      Store.Rewrites s.now key part g s.store s'.store ∧ s'.now = s.now ∧ s'.rules = s.rules := by
  refine .call fun hwell => ?_
  obtain ⟨r, hr⟩ := Site.reply_of_isOk hwell
  have hrun := Site.run_of_call_ok hr
  refine ⟨r, hr, ?_, s.now_call c, s.rules_call c⟩
  rcases Call.settles_rewrite (s := s.store) hc with ⟨e, herror⟩ | ⟨-, -, hw⟩
  · cases hrun.symm.trans herror
  · rwa [hrun] at hw

/-- **One part**: its outcome is recorded in its half of the row, and given back. -/
theorem achieves_part (hs : s.CopiesOnly) (n : Node) {p : Project} (hp : p.id = projectId)
    (primaryUrl : String) (part : Part) :
    let rule := (MirrorRule.choose projectId part s.rules).1
    Achieves Site.Responds (Attempt.part n p primaryUrl part) s fun state s' =>
      state = endState rule.error ∧
      Store.Rewrites (s.now.addMillis rule.advance) (n.id, projectId) part
        (fun r => r.attempted rule.error s.now (s.now.addMillis rule.advance)) s.store s'.store ∧
      s'.now = s.now.addMillis rule.advance ∧
      s'.rules = (MirrorRule.choose projectId part s.rules).2 ∧ s'.CopiesOnly := by
  intro rule
  obtain ⟨fetched, hfetch, hstore, hnow, hrules, honly⟩ := hs.fetch part primaryUrl hp
  subst hp
  have hclock : Achieves Site.Responds Program.clock s fun started s' =>
      started = s.now ∧ s' = s := fun _ => ⟨_, _, run_clock s, rfl, rfl⟩
  refine hclock.bind ?_
  rintro started s₁ ⟨hstarted, hs₁⟩
  subst started s₁
  have hcopy : Achieves Site.Responds (Program.fetch primaryUrl p part).attempt s fun r s' =>
      r = rule.error.elim (.ok ()) .error ∧ s' = fetched := fun _ => by
    refine ⟨_, _, ?_, rfl, rfl⟩
    rw [run_attempt, run_fetch, hfetch]
    cases rule.error <;> rfl
  refine hcopy.bind ?_
  rintro r s₂ ⟨hr, hs₂⟩
  subst r s₂
  cases herror : rule.error with
  | none =>
    refine (achieves_record (s := fetched) (c := .recordSyncSuccess n.id p.id part s.now)
      rfl).bind ?_
    rintro _ s' ⟨hw, hnow', hrules'⟩
    rw [hstore, hnow] at hw
    refine .pure ⟨rfl, hw, hnow'.trans hnow, hrules'.trans hrules, fun r hr => honly r ?_⟩
    rwa [hrules'] at hr
  | some e =>
    refine (achieves_record (s := fetched)
      (c := .recordSyncFailure n.id p.id part (truncate e.message)) rfl).bind ?_
    rintro _ s' ⟨hw, hnow', hrules'⟩
    rw [hstore, hnow] at hw
    refine .pure ⟨rfl, hw, hnow'.trans hnow, hrules'.trans hrules, fun r hr => honly r ?_⟩
    rwa [hrules'] at hr

/-! ## Attempts -/

/-- An attempt has recorded in `row`, and in nothing else that is kept, how the copies ended that
were made from `t₀` to `t₁` and, if the wiki is copied too, from `t₁` to `t₂`. -/
structure Recorded (outcome : Part → Option Error) (copiesWiki : Bool) (t₀ t₁ t₂ : Instant)
    (key : Int × Int) (s s' : Store) (row : RegistryRow) : Prop where
  rows : ∀ key', s'.registries.get? key' = if key' = key then some row else s.registries.get? key'
  createdAt : row.createdAt = (s.rowOrFresh t₁ key).createdAt
  repository : row.repository =
    (s.rowOrFresh t₁ key).repository.attempted (outcome .repository) t₀ t₁
  wiki : row.wiki =
    if copiesWiki then (s.rowOrFresh t₁ key).wiki.attempted (outcome .wiki) t₁ t₂
    else (s.rowOrFresh t₁ key).wiki
  projects : ∀ id, s'.projects.get? id =
    if id = key.2 ∧ outcome .repository = none then
      (s.projects.get? id).map fun p => { p with sizeBytes := none }
    else s.projects.get? id
  rest : Store.SameBut [.registries, .projects] s s'

/-- A value that is there is handed on. -/
theorem achieves_orElse {α β : Type} {P : Site → Effect → Prop} {post : β → Site → Prop} {a : α}
    {next : α → Program β} (whenNone : Error) (h : Achieves P (next a) s post) :
    Achieves P (Program.orElse whenNone (some a) >>= next) s post := h

/-- **The end of an attempt**: a repository that was copied is to be measured anew. -/
theorem achieves_end (o : Outcome) (id : Int) :
    Achieves Site.Responds (do
      if o.repository = .synced then Program.call (.expireRepositoryCache id)
      return o) s fun o' s' => o' = o ∧ s'.store = { s.store with
        projects := if o.repository = .synced then
            s.store.projects.modify id fun p => { p with sizeBytes := none }
          else s.store.projects } := by
  by_cases hsynced : o.repository = .synced
  · simp only [if_pos hsynced]
    have hcall : Achieves Site.Responds (Program.call (.expireRepositoryCache id)) s fun _ s' =>
        s'.store = { s.store with
          projects := s.store.projects.modify id fun p => { p with sizeBytes := none } } :=
      .call fun hwell => by
        obtain ⟨r, hr⟩ := Site.reply_of_isOk hwell
        exact ⟨r, hr, (congrArg Prod.snd (Site.run_of_call_ok hr)).symm⟩
    exact hcall.bind fun _ s' hs' => .pure ⟨rfl, hs'⟩
  · simp only [if_neg hsynced]
    exact .pure ⟨rfl, rfl⟩

theorem endState_eq_synced {outcome : Option Error} :
    endState outcome = .synced ↔ outcome = none := by
  cases outcome <;> simp [endState]

/-- The halves that were rewritten make up the row. -/
theorem recorded_of {outcome : Part → Option Error} {copiesWiki : Bool} {t₀ t₁ t₂ : Instant}
    {key : Int × Int} {row : RegistryRow} {store store' : Store} (copied : Store)
    (hrow : row = ⟨(store.rowOrFresh t₁ key).repository.attempted (outcome .repository) t₀ t₁,
      if copiesWiki then (store.rowOrFresh t₁ key).wiki.attempted (outcome .wiki) t₁ t₂
      else (store.rowOrFresh t₁ key).wiki, (store.rowOrFresh t₁ key).createdAt⟩)
    (hrows : ∀ key', copied.registries.get? key' =
      if key' = key then some row else store.registries.get? key')
    (hrest : copied = { store with registries := copied.registries })
    (hend : store' = { copied with
      projects := if endState (outcome .repository) = .synced then
        copied.projects.modify key.2 fun p => { p with sizeBytes := none } else copied.projects }) :
    Recorded outcome copiesWiki t₀ t₁ t₂ key store store' row := by
  have hprojects : copied.projects = store.projects := by rw [hrest]
  subst hrow
  refine ⟨fun key' => ?_, rfl, rfl, rfl, fun id => ?_, fun p hp => ?_⟩
  · rw [hend]
    exact hrows key'
  · rw [hend]
    simp only [hprojects, endState_eq_synced]
    by_cases hnone : outcome .repository = none
    · simp only [hnone, if_true, and_true, Store.Numbered.get?_modify]
    · simp only [hnone, if_false, and_false]
  · rw [hend, hrest]
    cases p <;> first | rfl | exact absurd (by decide) hp

/-- What an attempt does once it has found a node, a project and where to copy from. -/
def copies (f : Features) (n : Node) (p : Project) (primaryUrl : String) : Program Outcome := do
  let repository ← part n p primaryUrl .repository
  let wiki ←
    if p.wikiEnabled && f.wikiSync then some <$> part n p primaryUrl .wiki else pure none
  if repository = .synced then Program.call (.expireRepositoryCache p.id)
  return ⟨repository, wiki⟩

/-- How the copies of an attempt end. -/
def result (outcome : Part → Option Error) (copiesWiki : Bool) : Outcome :=
  ⟨endState (outcome .repository), if copiesWiki then some (endState (outcome .wiki)) else none⟩

/-- **The copies**: the wiki is copied after the repository, whatever has become of that. -/
theorem achieves_copies (hs : s.CopiesOnly) (f : Features) (n : Node) (p : Project)
    (primaryUrl : String) :
    Achieves Site.Responds (copies f n p primaryUrl) s fun o s' =>
      o = result (s.outcome p.id) (p.wikiEnabled && f.wikiSync) ∧
      ∃ row, Recorded (s.outcome p.id) (p.wikiEnabled && f.wikiSync) s.now (s.repositoryEnd p.id)
        (s.wikiEnd p.id) (n.id, p.id) s.store s'.store row := by
  refine (achieves_part hs n rfl primaryUrl .repository).bind ?_
  rintro _ s₁ ⟨rfl, hw₁, hnow, hrules, honly⟩
  have hnow₁ : s₁.now = s.repositoryEnd p.id := hnow
  have hrule₁ : (MirrorRule.choose p.id .wiki s₁.rules).1 = s.wikiRule p.id := by
    rw [hrules]
    rfl
  dsimp only
  by_cases hwiki : (p.wikiEnabled && f.wikiSync) = true
  · rw [if_pos hwiki, map_eq_pure_bind, Program.bind_assoc, hwiki]
    refine (achieves_part honly n rfl primaryUrl .wiki).bind ?_
    rintro _ s₂ ⟨rfl, hw₂, -⟩
    rw [hrule₁, hnow₁] at hw₂
    rw [hrule₁]
    refine (achieves_end (result (s.outcome p.id) true) p.id).imp ?_
    rintro _ s' ⟨rfl, hend⟩
    refine ⟨rfl, _, recorded_of s₂.store rfl (fun key' => ?_) ?_ hend⟩
    · rw [hw₂.rows, hw₁.rowOrFresh, hw₁.rows]
      split <;> rfl
    · rw [hw₂.rest, hw₁.rest]
  · rw [if_neg hwiki, Bool.eq_false_iff.mpr hwiki]
    refine (achieves_end (result (s.outcome p.id) false) p.id).imp ?_
    rintro _ s' ⟨rfl, hend⟩
    exact ⟨rfl, _, recorded_of s₁.store rfl hw₁.rows hw₁.rest hend⟩

theorem achieves_run {f : Features} {project : ProjectRow} (hs : s.CopiesOnly)
    (hnode : s.store.nodes.contains nodeId = true)
    (hproject : s.store.projects.get? projectId = some project)
    (hprimary : s.store.HasPrimary) :
    Achieves Site.Responds (Attempt.run f nodeId projectId) s fun o s' =>
      o = result (s.outcome projectId) (project.wikiEnabled && f.wikiSync) ∧
      ∃ row, Recorded (s.outcome projectId) (project.wikiEnabled && f.wikiSync) s.now
        (s.repositoryEnd projectId) (s.wikiEnd projectId) (nodeId, projectId) s.store s'.store
        row := by
  refine (achieves_look rfl).bind ?_
  rintro o s₁ ⟨hn, faults₁, rfl⟩
  have hread := Call.fst_lift_read.mp hn
  obtain ⟨n, rfl⟩ := Option.isSome_iff_exists.mp ((Store.isSome_readNode hread).trans hnode)
  obtain ⟨row, -, hholds⟩ := Store.readNode_eq_some_iff.mp hread
  obtain rfl := hholds.id
  refine achieves_orElse _ ((achieves_look rfl).bind ?_)
  rintro p s₂ ⟨hp, faults₂, rfl⟩
  obtain rfl := (Except.ok.inj hp).symm.trans (congrArg (Option.map _) hproject)
  refine achieves_orElse _ ((achieves_look rfl).bind ?_)
  rintro found s₃ ⟨hfound, faults₃, rfl⟩
  obtain ⟨primary, rfl⟩ := Option.isSome_iff_exists.mp
    ((Store.isSome_readPrimary (Call.fst_lift_read.mp hfound)).mpr hprimary)
  exact achieves_orElse _ (achieves_copies (s := { s with faults := faults₃ }) hs f _
    (project.record s.now projectId) primary.url)

/-- A look that finds nothing ends the program; one that finds something is followed by the rest. -/
theorem run_look {α β : Type} {c : Call} (found : c.Reply → Option α) (hc : c.writes = [])
    {whenNone : Error} {next : α → Program β}
    (hwell : (Program.call c >>= fun r =>
      Program.orElse whenNone (found r) >>= next).Throughout Site.Responds s) :
    (∃ faults, (Program.call c >>= fun r => Program.orElse whenNone (found r) >>= next).run s =
      (.error (.error whenNone), { s with faults })) ∨
    ∃ r a faults, (c.run s.now s.store).1 = .ok r ∧ found r = some a ∧
      (Program.call c >>= fun r => Program.orElse whenNone (found r) >>= next).run s =
        (next a).run { s with faults } ∧
      (next a).Throughout Site.Responds { s with faults } := by
  obtain ⟨hlook, hrest⟩ := throughout_bind.mp hwell
  obtain ⟨r, s', hrun, hr, faults, rfl⟩ := achieves_look hc hlook
  have hnext := hrest _ _ hrun
  rw [run_bind_ok hrun]
  cases hfound : found r with
  | none => exact .inl ⟨faults, rfl⟩
  | some a =>
    rw [hfound] at hnext
    exact .inr ⟨r, a, faults, hr, hfound, rfl, hnext⟩

/-- **Nothing to copy, or nowhere to copy to or from**: the attempt is given up before it has
changed anything. -/
theorem run_missing {f : Features}
    (hwell : (Attempt.run f nodeId projectId).Throughout Site.Responds s)
    (hmissing : ¬ (s.store.nodes.contains nodeId = true ∧
      s.store.projects.contains projectId = true ∧ s.store.HasPrimary)) :
    ∃ e faults,
      (Attempt.run f nodeId projectId).run s = (.error (.error e), { s with faults }) := by
  rcases run_look (c := .getNode nodeId) id rfl hwell with
    ⟨faults, hrun⟩ | ⟨_, n, faults, hn, rfl, hrun, hwell⟩
  · exact ⟨_, faults, hrun⟩
  rcases run_look (c := .getProject projectId) id rfl hwell with
    ⟨faults, hrun'⟩ | ⟨_, p, faults, hp, rfl, hrun', hwell⟩
  · exact ⟨_, faults, hrun.trans hrun'⟩
  rcases run_look (c := .getPrimaryNode) id rfl hwell with
    ⟨faults, hrun''⟩ | ⟨_, q, faults, hq, rfl, -⟩
  · exact ⟨_, faults, hrun.trans (hrun'.trans hrun'')⟩
  obtain ⟨projectRow, hproject, -⟩ := Option.map_eq_some_iff.mp (Except.ok.inj hp)
  refine absurd ⟨?_, ?_, ?_⟩ hmissing
  · exact (Store.isSome_readNode (Call.fst_lift_read.mp hn)).symm
  · exact Option.isSome_iff_exists.mpr ⟨projectRow, hproject⟩
  · exact (Store.isSome_readPrimary (Call.fst_lift_read.mp hq)).mp rfl

/-- **What an attempt records.**  Let the two copies end as they like and let no operation of the
store fail.  If the node, the project and a primary are there, the attempt ends with an outcome.
Each half of the row of the node for the project, or of a fresh row, is updated by how its own copy
ended, that of the wiki only if the project has one and wikis are copied; a half that records a
failure keeps the last success, with the reason for it cut to 255 characters.  The size of the
repository is forgotten if its copy was well, nothing else that is kept is changed, and the outcome
gives the states that are stored now.  If one of the three is missing, the attempt ends with an
error and the store is what it was. -/
theorem attempt_records (f : Features) (nodeId projectId : Int) (s : Site) (hs : s.CopiesOnly)
    (hwell : (Attempt.run f nodeId projectId).Throughout Site.Responds s) :
    (∀ project, s.store.nodes.contains nodeId = true →
      s.store.projects.get? projectId = some project →
      s.store.HasPrimary →
      ∃ o s' row, (Attempt.run f nodeId projectId).run s = (.ok o, s') ∧
        Recorded (s.outcome projectId) (project.wikiEnabled && f.wikiSync) s.now
          (s.repositoryEnd projectId) (s.wikiEnd projectId) (nodeId, projectId) s.store s'.store
          row ∧
        o.repository.word = row.repository.state ∧
        o.wiki.map SyncState.word =
          (if project.wikiEnabled && f.wikiSync then some row.wiki.state else none) ∧
        ∀ part e, s.outcome projectId part = some e →
          (part = .wiki → (project.wikiEnabled && f.wikiSync) = true) →
          (row.part part).successfulAt =
              ((s.store.rowOrFresh (s.repositoryEnd projectId) (nodeId, projectId)).part
                part).successfulAt ∧
            ∃ reason, (row.part part).failure = some reason ∧ IsReason e.message reason) ∧
    (¬ (s.store.nodes.contains nodeId = true ∧ s.store.projects.contains projectId = true ∧
        s.store.HasPrimary) →
      ∃ e, ((Attempt.run f nodeId projectId).run s).1 = .error (.error e) ∧
        ((Attempt.run f nodeId projectId).run s).2.store = s.store) := by
  refine ⟨fun project hnode hproject hprimary => ?_, fun hmissing => ?_⟩
  · obtain ⟨o, s', hrun, rfl, row, hrow⟩ := achieves_run hs hnode hproject hprimary hwell
    refine ⟨_, s', row, hrun, hrow, ?_, ?_, ?_⟩
    · rw [hrow.repository, PartRow.state_attempted]
      rfl
    · rw [hrow.wiki, result]
      split
      · rw [PartRow.state_attempted]
        rfl
      · rfl
    · rintro (_ | _) e herror hwiki
      · rw [RegistryRow.part, hrow.repository]
        exact PartRow.attempted_of_error herror
      · rw [RegistryRow.part, hrow.wiki, if_pos (hwiki rfl)]
        exact PartRow.attempted_of_error herror
  · obtain ⟨e, faults, hrun⟩ := run_missing hwell hmissing
    rw [hrun]
    exact ⟨e, rfl, rfl⟩

/-- A primary and a secondary that has once copied a project with a wiki.  The repository has been
measured since.  The next copy of it takes a second, and that of the wiki fails after another with
more to say than fits. -/
def refusedWiki : Site :=
  let calls : List Call := [.createNamespace "group" none,
    .createNode ⟨⟨"http", "primary", 80, ""⟩, .primary, true, [], 1, 1⟩,
    .createNode ⟨⟨"http", "second", 80, ""⟩, .secondary, true, [], 1, 1⟩,
    .createProject ⟨1, "a", "group/a", "default", true, none⟩,
    .recordSyncSuccess 2 1 .repository .epoch, .recordSyncSuccess 2 1 .wiki .epoch]
  let store := calls.foldl (fun s c => (c.run .epoch s).2) .empty
  { Site.start (Instant.epoch.addMillis 60000) { store with
      projects := store.projects.modify 1 fun p => { p with sizeBytes := some 7 } } [] with
    rules := [⟨none, some .repository, none, 1000, 0, false, none, none⟩,
      ⟨none, some .wiki, none, 1000, 0, false, none,
        some (.mirror (String.ofList (List.replicate 300 'x')))⟩] }

theorem attempt_records_refusedWiki : refusedWiki.CopiesOnly ∧
    ∃ o s' row, (Attempt.run .all 2 1).run refusedWiki = (.ok o, s') ∧
      s'.store.registries.get? (2, 1) = some row ∧ o.repository.word = row.repository.state ∧
      o.wiki.map SyncState.word = some row.wiki.state ∧
      row.wiki.successfulAt = some Instant.epoch.stored ∧
      ∃ reason, row.wiki.failure = some reason ∧
        IsReason ("mirror failed: " ++ String.ofList (List.replicate 300 'x')) reason := by
  have hs : refusedWiki.CopiesOnly := by decide +kernel
  obtain ⟨o, s', row, hrun, hrow, hrepository, hwiki, hfailures⟩ :=
    (attempt_records .all 2 1 refusedWiki hs (by decide +kernel)).1
      ⟨1, "a", "group/a", "default", true, none, none, some 7, Instant.epoch.stored⟩
      (by decide +kernel) (by decide +kernel) (by decide +kernel)
  obtain ⟨hkept, hreason⟩ := hfailures .wiki
    (.mirror (String.ofList (List.replicate 300 'x'))) (by decide +kernel) fun _ => rfl
  refine ⟨hs, o, s', row, hrun, ?_, hrepository, hwiki, hkept.trans ?_, hreason⟩
  · rw [hrow.rows, if_pos rfl]
  · decide +kernel

end Attempt

end GeoReplication
