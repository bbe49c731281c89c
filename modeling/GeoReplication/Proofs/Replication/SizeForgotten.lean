import GeoReplication.Proofs.Replication.Recorded
import GeoReplication.Proofs.Site.Turns
import GeoReplication.Proofs.Store.Reached

/-!
# Proofs/Replication/SizeForgotten — when an attempt forgets the size of a repository

    repository  fetched … recorded ──▸ wiki  fetched … recorded ──▸ size forgotten
                                                       failed   ──▸ the size stays

The size is forgotten last.  So an attempt that has recorded a repository as copied, and could
forget its size, does so unless what became of the wiki cannot be recorded; then it ends right there
(`recorded_size`).
-/

namespace GeoReplication

open Program GeoReplication.Time

namespace Program

variable {α β : Type} {P : Site → Effect → Prop} {t : Program α} {next : α → Program β}
  {s s' : Site}

/-- `P` holds of some effect of the run and the site at which it is carried out. -/
def Sometime (P : Site → Effect → Prop) (t : Program α) (s : Site) : Prop :=
  ¬t.Throughout (fun s e => ¬P s e) s

instance [∀ s e, Decidable (P s e)] (t : Program α) (s : Site) : Decidable (t.Sometime P s) :=
  inferInstanceAs (Decidable (¬t.Throughout (fun s e => ¬P s e) s))

theorem throughout_bind_of_ok {a : α} (h : t.run s = (.ok a, s')) :
    (t >>= next).Throughout P s ↔ t.Throughout P s ∧ (next a).Throughout P s' := by
  rw [throughout_bind]
  refine and_congr_right fun _ => ⟨fun hnext => hnext a s' h, ?_⟩
  rintro hnext a' s'' h'
  cases h.symm.trans h'
  exact hnext

theorem throughout_bind_of_error {f : Failure} (h : t.run s = (.error f, s')) :
    (t >>= next).Throughout P s ↔ t.Throughout P s := by
  rw [throughout_bind]
  refine and_iff_left fun a s'' h' => ?_
  cases h.symm.trans h'

end Program

/-! ## The measured size -/

/-- The size of the repository of a project, if it has been measured. -/
def Store.size? (s : Store) (projectId : Int) : Option Int :=
  (s.projects.get? projectId).bind (·.sizeBytes)

/-- An operation that leaves measured sizes alone: it writes no projects, or only touches one. -/
def Call.KeepsSize (c : Call) : Prop :=
  Place.projects ∉ c.writes ∨ ∃ id part time, c = .touchProject id part time

namespace Site

variable {s : Site} {c : Call}

theorem size_call (hc : c.KeepsSize) (s : Site) (id : Int) :
    (s.call c).2.store.size? id = s.store.size? id := by
  rcases s.store_call c with hsame | hrun
  · rw [hsame]
  rw [hrun]
  rcases hc with hc | ⟨touched, part, time, rfl⟩
  · have hprojects : (c.run s.now s.store).2.projects = s.store.projects :=
      c.sameBut_run s.now s.store .projects hc
    rw [Store.size?, Store.size?, hprojects]
  · rcases Store.run_touchProject s.now touched part time s.store with hsame | hsame
    · rw [hsame]
    · rw [hsame, Store.size?, Store.size?, Store.Numbered.get?_modify]
      split
      · cases s.store.projects.get? id <;> cases part <;> rfl
      · rfl

theorem size_fetch (primaryUrl : String) (p : Project) (part : Part) (s : Site) (id : Int) :
    (s.perform (.fetch primaryUrl p part)).2.store.size? id = s.store.size? id := by
  let c := (s.beginFetch primaryUrl p part).1
  let begun := (s.beginFetch primaryUrl p part).2.note c false
  change ((s.beginFetch primaryUrl p part).2.endFetch c).2.store.size? id = begun.store.size? id
  rw [endFetch_snd]
  obtain ⟨touched, htouched, hdone⟩ := begun.meanwhile_snd c
  have hfirst : touched.store.size? id = begun.store.size? id := by
    rcases htouched with rfl | rfl
    · rfl
    · exact size_call (.inr ⟨_, _, _, rfl⟩) begun id
  rcases hdone with hdone | ⟨nodeId, -, hdone⟩ <;> rw [hdone]
  · exact hfirst
  · rw [size_call (c := .requestResync _ _ _) (.inl (by simp [Call.writes])) touched id]
    exact hfirst

theorem meanwhile_ne_overflow (s : Site) (c : Copying) (o : Overflow) :
    (s.meanwhile c).1 ≠ .error (.overflow o) := by
  rw [meanwhile]
  split
  · next f s' htouched =>
    split at htouched
    · have htouch := s.call_ne_overflow (c := .touchProject c.project.id c.part s.now)
        (Call.lift_ne_overflow _ _) o
      rw [htouched] at htouch
      exact htouch
    · cases htouched
  · next s' htouched =>
    cases c.rule.resyncNode with
    | none => exact fun h => by cases h
    | some nodeId =>
      exact s'.call_ne_overflow (c := .requestResync nodeId c.project.id c.part)
        (Call.lift_ne_overflow _ _) o

/-- A copy may fail, but never by an overflow. -/
theorem fetch_ne_overflow (primaryUrl : String) (p : Project) (part : Part) (s : Site)
    (o : Overflow) : (s.perform (.fetch primaryUrl p part)).1 ≠ .error (.overflow o) := by
  let c := (s.beginFetch primaryUrl p part).1
  change ((s.beginFetch primaryUrl p part).2.endFetch c).1 ≠ _
  have hmeanwhile := ((s.beginFetch primaryUrl p part).2.note c false).meanwhile_ne_overflow c o
  rw [endFetch]
  rcases hends : ((s.beginFetch primaryUrl p part).2.note c false).meanwhile c with ⟨f | ⟨⟩, s'⟩
  · rw [hends] at hmeanwhile
    exact hmeanwhile
  · cases c.rule.error <;> exact fun h => by cases h

end Site

/-! ## What an attempt records -/

namespace Effect

/-- The effect records that the node has copied the repository of the project. -/
def recordsSynced (nodeId projectId : Int) : Effect → Bool
  | .store (.recordSyncSuccess nodeId' projectId' .repository _) =>
    nodeId' = nodeId && projectId' = projectId
  | _ => false

/-- The effect records what became of the wiki of the project at the node. -/
def recordsWiki (nodeId projectId : Int) : Effect → Bool
  | .store (.recordSyncSuccess nodeId' projectId' .wiki _)
  | .store (.recordSyncFailure nodeId' projectId' .wiki _) =>
    nodeId' = nodeId && projectId' = projectId
  | _ => false

/-- The effect forgets the size of the repository of the project. -/
def forgetsSize (projectId : Int) : Effect → Bool
  | .store (.expireRepositoryCache projectId') => projectId' = projectId
  | _ => false

end Effect

namespace Site

/-- It is recorded that the node has copied the repository. -/
def HasSynced (nodeId projectId : Int) (s : Site) (e : Effect) : Prop :=
  e.recordsSynced nodeId projectId = true ∧ s.Responds e

/-- What became of the wiki is recorded, if that is tried. -/
def RecordsWiki (nodeId projectId : Int) (s : Site) (e : Effect) : Prop :=
  e.recordsWiki nodeId projectId = true → s.Responds e

/-- The size is forgotten, if that is tried. -/
def ForgetsSize (projectId : Int) (s : Site) (e : Effect) : Prop :=
  e.forgetsSize projectId = true → s.Responds e

instance (nodeId projectId : Int) (s : Site) (e : Effect) :
    Decidable (s.HasSynced nodeId projectId e) :=
  inferInstanceAs (Decidable (e.recordsSynced nodeId projectId = true ∧ s.Responds e))

instance (nodeId projectId : Int) (s : Site) (e : Effect) :
    Decidable (s.RecordsWiki nodeId projectId e) :=
  inferInstanceAs (Decidable (e.recordsWiki nodeId projectId = true → s.Responds e))

instance (projectId : Int) (s : Site) (e : Effect) : Decidable (s.ForgetsSize projectId e) :=
  inferInstanceAs (Decidable (e.forgetsSize projectId = true → s.Responds e))

end Site

namespace Attempt

variable {P : Site → Effect → Prop} {s s' : Site} {n : Node} {p : Project} {f : Features}
  {primaryUrl : String}

/-- The state of a part after a copy that was begun at a time, and how it is recorded. -/
def recording (n : Node) (p : Project) (part : Part) (started : Instant) :
    Except Error Unit → SyncState × Call
  | .ok () => (.synced, .recordSyncSuccess n.id p.id part started)
  | .error e => (.syncFailed, .recordSyncFailure n.id p.id part (truncate e.message))

theorem part_eq (n : Node) (p : Project) (primaryUrl : String) (part : Part) :
    Attempt.part n p primaryUrl part =
      (Program.clock >>= fun started => (Program.fetch primaryUrl p part).attempt >>= fun r =>
        Program.call (recording n p part started r).2 >>= fun _ =>
          pure (recording n p part started r).1) := by
  refine congrArg (Program.clock >>= ·) (funext fun started => ?_)
  refine congrArg ((Program.fetch primaryUrl p part).attempt >>= ·) (funext fun r => ?_)
  cases r <;> rfl

/-- **One part**: after a copy that leaves sizes alone, its outcome is recorded, or that fails and
so does the part. -/
theorem run_part (n : Node) (p : Project) (primaryUrl : String) (part : Part) (s : Site) :
    ∃ r s₁, (∀ id, s₁.store.size? id = s.store.size? id) ∧
      (Attempt.part n p primaryUrl part).run s =
        ((s₁.call (recording n p part s.now r).2).1.map fun _ => (recording n p part s.now r).1,
          (s₁.call (recording n p part s.now r).2).2) ∧
      ∀ P, (Attempt.part n p primaryUrl part).Throughout P s ↔
        P s .clock ∧ P s (.fetch primaryUrl p part) ∧
          P s₁ (.store (recording n p part s.now r).2) := by
  have hcopy (P : Site → Effect → Prop) : (Program.fetch primaryUrl p part).attempt.Throughout P s ↔
      P s (.fetch primaryUrl p part) := by
    refine ⟨fun h => h.1, fun h => ⟨h, ?_⟩⟩
    rcases (s.perform (.fetch primaryUrl p part)).1 with (e | o) | ⟨⟩ <;> trivial
  have hcaught : ∃ r, (Program.fetch primaryUrl p part).attempt.run s =
      (.ok r, (s.perform (.fetch primaryUrl p part)).2) := by
    have hoverflow := Site.fetch_ne_overflow primaryUrl p part s
    rw [run_attempt, run_fetch]
    rcases hfetch : s.perform (.fetch primaryUrl p part) with ⟨(e | o) | ⟨⟩, s₁⟩
    · exact ⟨_, rfl⟩
    · rw [hfetch] at hoverflow
      exact absurd rfl (hoverflow o)
    · exact ⟨_, rfl⟩
  obtain ⟨r, hcaught⟩ := hcaught
  refine ⟨r, _, Site.size_fetch primaryUrl p part s, ?_, fun P => ?_⟩
  · rw [part_eq, run_bind_ok (run_clock s), run_bind_ok hcaught, run_bind, run_call]
    rcases (s.perform (.fetch primaryUrl p part)).2.call _ with ⟨f | reply, s₂⟩ <;> rfl
  · rw [part_eq, throughout_bind_of_ok (run_clock s), throughout_bind_of_ok hcaught, hcopy,
      throughout_bind, throughout_call]
    exact and_congr ⟨fun h => h.1, fun h => ⟨h, trivial⟩⟩
      (and_congr_right fun _ => and_iff_left fun _ _ _ => trivial)

/-- Records leave sizes alone, and overflow never. -/
theorem recording_spec (n : Node) (p : Project) (part : Part) (started : Instant)
    (r : Except Error Unit) (s : Site) :
    (∀ id, (s.call (recording n p part started r).2).2.store.size? id = s.store.size? id) ∧
      ∀ o, (s.call (recording n p part started r).2).1 ≠ .error (.overflow o) := by
  cases r with
  | ok _ => exact ⟨Site.size_call (.inl (by simp [recording, Call.writes])) s,
      s.call_ne_overflow (Call.lift_ne_overflow _ _)⟩
  | error e => exact ⟨Site.size_call (.inl (by simp [recording, Call.writes])) s,
      s.call_ne_overflow (Call.lift_ne_overflow _ _)⟩

/-! ## The end of an attempt -/

/-- A repository that was copied is to be measured anew. -/
def finish (o : Outcome) (id : Int) : Program Outcome := do
  if o.repository = .synced then Program.call (.expireRepositoryCache id)
  return o

theorem finish_of_synced {o : Outcome} (ho : o.repository = .synced) (id : Int) :
    finish o id = (Program.call (.expireRepositoryCache id) >>= fun _ => pure o) := by
  rw [finish, if_pos ho]

theorem run_finish {o : Outcome} (ho : o.repository = .synced) {id : Int}
    (h : (finish o id).Throughout (Site.ForgetsSize id) s) :
    ∃ s', (finish o id).run s = (.ok o, s') ∧ s'.store.size? id = none := by
  rw [finish_of_synced ho] at h ⊢
  obtain ⟨reply, hreply⟩ := Site.reply_of_isOk
    (throughout_call.mp (throughout_bind.mp h).1 (decide_eq_true rfl))
  have hstore : (s.call (.expireRepositoryCache id)).2.store = { s.store with
      projects := s.store.projects.modify id fun p => { p with sizeBytes := none } } :=
    (congrArg Prod.snd (Site.run_of_call_ok hreply)).symm
  refine ⟨_, run_bind_ok ((run_call _ s).trans (Prod.ext hreply rfl)) _, ?_⟩
  change (s.call (.expireRepositoryCache id)).2.store.size? id = none
  rw [hstore, Store.size?, Store.Numbered.get?_modify, if_pos rfl]
  cases s.store.projects.get? id <;> rfl

theorem throughout_finish {o : Outcome} {id : Int}
    (h : ∀ s, P s (.store (.expireRepositoryCache id))) : (finish o id).Throughout P s := by
  by_cases ho : o.repository = .synced
  · rw [finish_of_synced ho]
    exact throughout_bind.mpr ⟨throughout_call.mpr (h s), fun _ _ _ => trivial⟩
  · have heq : finish o id = pure o := by
      rw [finish, if_neg ho]
    rw [heq]
    trivial

/-- What is left of an attempt once it is recorded what became of the repository. -/
def afterRepository (f : Features) (n : Node) (p : Project) (primaryUrl : String)
    (repository : SyncState) : Program Outcome :=
  if p.wikiEnabled && f.wikiSync then
    Attempt.part n p primaryUrl .wiki >>= fun wiki => finish ⟨repository, some wiki⟩ p.id
  else finish ⟨repository, none⟩ p.id

theorem copies_eq (f : Features) (n : Node) (p : Project) (primaryUrl : String) :
    copies f n p primaryUrl =
      (Attempt.part n p primaryUrl .repository >>= afterRepository f n p primaryUrl) := by
  refine congrArg (Attempt.part n p primaryUrl .repository >>= ·) (funext fun repository => ?_)
  rw [afterRepository]
  by_cases hwiki : (p.wikiEnabled && f.wikiSync) = true
  · rw [if_pos hwiki, if_pos hwiki, map_eq_pure_bind, Program.bind_assoc]
    rfl
  · rw [if_neg hwiki, if_neg hwiki]
    rfl

/-- Of what is left, nothing is a record of the repository. -/
theorem throughout_afterRepository (f : Features) (n : Node) (p : Project) (primaryUrl : String)
    (repository : SyncState) (s : Site) : (afterRepository f n p primaryUrl repository).Throughout
      (fun s e => ¬s.HasSynced n.id p.id e) s := by
  have hfinish (o : Outcome) (s : Site) : (finish o p.id).Throughout
      (fun s e => ¬s.HasSynced n.id p.id e) s := throughout_finish fun _ h => by cases h.1
  rw [afterRepository]
  split
  · obtain ⟨r, s₁, -, -, hthrough⟩ := run_part n p primaryUrl .wiki s
    have hrecord : ¬s₁.HasSynced n.id p.id (.store (recording n p .wiki s.now r).2) := by
      cases r <;> exact fun h => by cases h.1
    refine throughout_bind.mpr ⟨(hthrough _).mpr ?_, fun _ _ _ => hfinish _ _⟩
    exact ⟨fun h => (by cases h.1), fun h => (by cases h.1), hrecord⟩
  · exact hfinish _ _

/-- Either what became of the wiki is recorded, if it is copied, and the size is forgotten; or that
cannot be recorded, the program ends with an error, and the size stays. -/
def SizeEnds (nodeId projectId : Int) (t : Program Outcome) (s : Site) : Prop :=
  (t.Throughout (Site.RecordsWiki nodeId projectId) s ∧
    ∃ o s', t.run s = (.ok o, s') ∧ o.repository = .synced ∧ s'.store.size? projectId = none) ∨
  (¬t.Throughout (Site.RecordsWiki nodeId projectId) s ∧
    ∃ e s', t.run s = (.error (.error e), s') ∧
      s'.store.size? projectId = s.store.size? projectId)

/-- A program that begins by what keeps the size and records no wiki ends as its rest does. -/
theorem SizeEnds.of_rest {nodeId projectId : Int} {t t' : Program Outcome}
    (h : SizeEnds nodeId projectId t' s') (hrun : t.run s = t'.run s')
    (hsize : s'.store.size? projectId = s.store.size? projectId)
    (hquiet : t.Throughout (Site.RecordsWiki nodeId projectId) s ↔
      t'.Throughout (Site.RecordsWiki nodeId projectId) s') : SizeEnds nodeId projectId t s := by
  rw [SizeEnds, hquiet, hrun, ← hsize]
  exact h

/-- **With the repository recorded**, the size is forgotten in the end, unless what became of the
wiki cannot be recorded. -/
theorem sizeEnds_afterRepository
    (hforgets : (afterRepository f n p primaryUrl .synced).Throughout (Site.ForgetsSize p.id) s) :
    SizeEnds n.id p.id (afterRepository f n p primaryUrl .synced) s := by
  have hfinish {o : Outcome} (ho : o.repository = .synced) {s : Site}
      (h : (finish o p.id).Throughout (Site.ForgetsSize p.id) s) :
      (finish o p.id).Throughout (Site.RecordsWiki n.id p.id) s ∧
        ∃ o' s', (finish o p.id).run s = (.ok o', s') ∧ o'.repository = .synced ∧
          s'.store.size? p.id = none := by
    obtain ⟨s', hrun, hsize⟩ := run_finish ho h
    exact ⟨throughout_finish fun _ h => (by cases h), o, s', hrun, ho, hsize⟩
  rw [afterRepository] at hforgets
  rw [SizeEnds, afterRepository]
  by_cases hwiki : (p.wikiEnabled && f.wikiSync) = true
  · simp only [if_pos hwiki] at hforgets ⊢
    obtain ⟨r, s₁, hsize₁, hrun, hthrough⟩ := run_part n p primaryUrl .wiki s
    have hrecords :
        (Effect.store (recording n p .wiki s.now r).2).recordsWiki n.id p.id = true := by
      cases r <;> simp [recording, Effect.recordsWiki]
    obtain ⟨hsize₂, hoverflow⟩ := recording_spec n p .wiki s.now r s₁
    rcases hcall : s₁.call (recording n p .wiki s.now r).2 with ⟨(e | o) | reply, s₂⟩ <;>
      rw [hcall] at hrun hsize₂ hoverflow
    · have hfails : ¬s₁.Responds (.store (recording n p .wiki s.now r).2) := fun h => by
        rw [Site.Responds, Site.responds, hcall] at h
        cases h
      refine .inr ⟨?_, e, s₂, ?_, (hsize₂ p.id).trans (hsize₁ p.id)⟩
      · rw [throughout_bind_of_error hrun, hthrough]
        exact fun h => hfails (h.2.2 hrecords)
      · rw [run_bind, hrun]
        rfl
    · exact absurd rfl (hoverflow o)
    · obtain ⟨hquiet, o, s', hend⟩ := hfinish rfl ((throughout_bind_of_ok hrun).mp hforgets).2
      refine .inl ⟨?_, o, s', (run_bind_ok hrun _).trans hend.1, hend.2⟩
      have hresponds : s₁.Responds (.store (recording n p .wiki s.now r).2) := by
        rw [Site.Responds, Site.responds, hcall]
        rfl
      rw [throughout_bind_of_ok hrun, hthrough]
      exact ⟨⟨fun h => (by cases h), fun h => (by cases h), fun _ => hresponds⟩, hquiet⟩
  · simp only [if_neg hwiki] at hforgets ⊢
    exact .inl (hfinish rfl hforgets)

theorem sizeEnds_copies (hsynced : (copies f n p primaryUrl).Sometime (Site.HasSynced n.id p.id) s)
    (hforgets : (copies f n p primaryUrl).Throughout (Site.ForgetsSize p.id) s) :
    SizeEnds n.id p.id (copies f n p primaryUrl) s := by
  rw [copies_eq] at hsynced hforgets ⊢
  obtain ⟨r, s₁, hsize₁, hrun, hthrough⟩ := run_part n p primaryUrl .repository s
  obtain ⟨hsize₂, -⟩ := recording_spec n p .repository s.now r s₁
  rcases hcall : s₁.call (recording n p .repository s.now r).2 with ⟨failure | reply, s₂⟩ <;>
    rw [hcall] at hrun hsize₂
  · -- what is not answered is not recorded
    refine absurd ?_ hsynced
    rw [throughout_bind_of_error hrun, hthrough]
    refine ⟨fun h => (by cases h.1), fun h => (by cases h.1), fun h => ?_⟩
    have hresponds := h.2
    rw [Site.Responds, Site.responds, hcall] at hresponds
    cases hresponds
  · cases r with
    | error e =>
      refine absurd ?_ hsynced
      rw [throughout_bind_of_ok hrun, hthrough]
      exact ⟨⟨fun h => (by cases h.1), fun h => (by cases h.1), fun h => (by cases h.1)⟩,
        throughout_afterRepository f n p primaryUrl _ s₂⟩
    | ok _ =>
      refine (sizeEnds_afterRepository ((throughout_bind_of_ok hrun).mp hforgets).2).of_rest
        (run_bind_ok hrun _) ((hsize₂ p.id).trans (hsize₁ p.id)) ?_
      rw [throughout_bind_of_ok hrun, hthrough]
      exact and_iff_right ⟨fun h => (by cases h), fun h => (by cases h), fun h => (by cases h)⟩

/-! ## The whole attempt -/

/-- A look comes to nothing, or the rest goes on from what it found. -/
theorem run_question {α β : Type} {c : Call} (hc : c.writes = []) (found : c.Reply → Option α)
    (whenNone : Error) (next : α → Program β) (s : Site) :
    (∀ P, (Program.call c >>= fun r => Program.orElse whenNone (found r) >>= next).Throughout P s ↔
      P s (.store c)) ∨
    ∃ r a s', (c.run s.now s.store).1 = .ok r ∧ found r = some a ∧ s'.store = s.store ∧
      (Program.call c >>= fun r => Program.orElse whenNone (found r) >>= next).run s =
        (next a).run s' ∧
      ∀ P, (Program.call c >>= fun r => Program.orElse whenNone (found r) >>= next).Throughout P s ↔
        P s (.store c) ∧ (next a).Throughout P s' := by
  have hstore := s.store_call_of_writes_nil hc
  rcases hcall : s.call c with ⟨failure | r, s'⟩ <;> rw [hcall] at hstore
  · have hrun : (Program.call c).run s = (.error failure, s') := by rw [run_call, hcall]
    exact .inl fun P => (throughout_bind_of_error hrun).trans throughout_call
  · have hrun : (Program.call c).run s = (.ok r, s') := by rw [run_call, hcall]
    cases hfound : found r with
    | none =>
      refine .inl fun P => ?_
      rw [throughout_bind_of_ok hrun, throughout_call, hfound]
      exact and_iff_left trivial
    | some a =>
      refine .inr ⟨r, a, s', congrArg Prod.fst (Site.run_of_call_ok (congrArg Prod.fst hcall)),
        hfound, hstore, ?_, fun P => ?_⟩
      · rw [run_bind_ok hrun, hfound]
        rfl
      · rw [throughout_bind_of_ok hrun, throughout_call, hfound]
        exact Iff.rfl

theorem sizeEnds_question {α : Type} {c : Call} (hc : c.writes = []) (found : c.Reply → Option α)
    {whenNone : Error} {next : α → Program Outcome} {nodeId projectId : Int} {s : Site}
    (hquiet : ¬s.HasSynced nodeId projectId (.store c) ∧
      s.RecordsWiki nodeId projectId (.store c))
    (hsynced : (Program.call c >>= fun r => Program.orElse whenNone (found r) >>= next).Sometime
      (Site.HasSynced nodeId projectId) s)
    (hforgets : (Program.call c >>= fun r => Program.orElse whenNone (found r) >>= next).Throughout
      (Site.ForgetsSize projectId) s)
    (hnext : ∀ r a s', (c.run s.now s.store).1 = .ok r → found r = some a →
      (next a).Sometime (Site.HasSynced nodeId projectId) s' →
      (next a).Throughout (Site.ForgetsSize projectId) s' → SizeEnds nodeId projectId (next a) s') :
    SizeEnds nodeId projectId
      (Program.call c >>= fun r => Program.orElse whenNone (found r) >>= next) s := by
  rcases run_question hc found whenNone next s with hall | ⟨r, a, s', hr, ha, hstore, hrun, hall⟩
  · exact absurd ((hall _).mpr hquiet.1) hsynced
  · refine (hnext r a s' hr ha (fun h => hsynced ((hall _).mpr ⟨hquiet.1, h⟩))
      ((hall _).mp hforgets).2).of_rest hrun (by rw [hstore]) ?_
    exact (hall _).trans (and_iff_right hquiet.2)

/-- **When a size is forgotten.**  Let an attempt have recorded the repository as copied, and let
nothing keep it from forgetting the size if it tries to.  If everything that it tries to record of
the wiki is recorded, or it does not come to that, the attempt ends well and the size is forgotten.
If something of the wiki cannot be recorded, the attempt ends with an error, and the size stays what
it was. -/
theorem recorded_size (f : Features) (nodeId projectId : Int) {s : Site}
    (hsynced : (Attempt.run f nodeId projectId).Sometime (Site.HasSynced nodeId projectId) s)
    (hforgets : (Attempt.run f nodeId projectId).Throughout (Site.ForgetsSize projectId) s) :
    ((Attempt.run f nodeId projectId).Throughout (Site.RecordsWiki nodeId projectId) s →
      ∃ o s', (Attempt.run f nodeId projectId).run s = (.ok o, s') ∧ o.repository = .synced ∧
        s'.store.size? projectId = none) ∧
    (¬(Attempt.run f nodeId projectId).Throughout (Site.RecordsWiki nodeId projectId) s →
      ∃ e s', (Attempt.run f nodeId projectId).run s = (.error (.error e), s') ∧
        s'.store.size? projectId = s.store.size? projectId) := by
  have hends : SizeEnds nodeId projectId (Attempt.run f nodeId projectId) s := by
    refine sizeEnds_question (c := .getNode nodeId) rfl id
      ⟨fun h => (by cases h.1), fun h => (by cases h)⟩ hsynced hforgets ?_
    intro _ n s₁ hn hfound hsynced₁ hforgets₁
    obtain rfl : _ = some n := hfound
    obtain ⟨row, -, hholds⟩ := Store.readNode_eq_some_iff.mp (Call.fst_lift_read.mp hn)
    obtain rfl := hholds.id
    refine sizeEnds_question (c := .getProject projectId) rfl id
      ⟨fun h => (by cases h.1), fun h => (by cases h)⟩ hsynced₁ hforgets₁ ?_
    intro _ p s₂ hp hfound hsynced₂ hforgets₂
    obtain rfl : _ = some p := hfound
    obtain ⟨projectRow, -, rfl⟩ := Option.map_eq_some_iff.mp (Except.ok.inj hp)
    refine sizeEnds_question (c := .getPrimaryNode) rfl id
      ⟨fun h => (by cases h.1), fun h => (by cases h)⟩ hsynced₂ hforgets₂ ?_
    intro _ primary s₃ _ _ hsynced₃ hforgets₃
    exact sizeEnds_copies hsynced₃ hforgets₃
  rcases hends with ⟨hrecords, hnone⟩ | ⟨hrecords, hstays⟩
  · exact ⟨fun _ => hnone, fun h => absurd hrecords h⟩
  · exact ⟨fun h => absurd h hrecords, fun _ => hstays⟩

/-- The site of `refusedWiki`, where the wiki is copied too but that cannot be recorded. -/
def busyAfterRepository : Site :=
  { refusedWiki with rules := [], faults := [⟨.recordSyncSuccess, 1, some 1, .timeout "busy"⟩] }

/-- A wiki that cannot be copied does not keep the size, one that cannot be recorded does. -/
theorem recorded_size_busy :
    (∃ o s', (Attempt.run .all 2 1).run refusedWiki = (.ok o, s') ∧ s'.store.size? 1 = none) ∧
    ∃ e s', (Attempt.run .all 2 1).run busyAfterRepository = (.error (.error e), s') ∧
      s'.store.size? 1 = some 7 := by
  obtain ⟨hforgotten, -⟩ := recorded_size .all 2 1 (s := refusedWiki) (by decide +kernel)
    (by decide +kernel)
  obtain ⟨-, hstays⟩ := recorded_size .all 2 1 (s := busyAfterRepository) (by decide +kernel)
    (by decide +kernel)
  obtain ⟨o, s', hrun, -, hnone⟩ := hforgotten (by decide +kernel)
  obtain ⟨e, s'', hrun', hsize⟩ := hstays (by decide +kernel)
  exact ⟨⟨o, s', hrun, hnone⟩, e, s'', hrun', hsize.trans (by decide +kernel)⟩

/-- **A repository is recorded as copied and keeps its old size**: nothing keeps the attempt from
forgetting it, but it ends before that. -/
theorem size_outlives_copy :
    (Attempt.run .all 2 1).Sometime (Site.HasSynced 2 1) busyAfterRepository ∧
    (Attempt.run .all 2 1).Throughout (Site.ForgetsSize 1) busyAfterRepository ∧
    ((Attempt.run .all 2 1).run busyAfterRepository).2.store.size? 1 = some 7 := by
  decide +kernel

end Attempt

end GeoReplication
