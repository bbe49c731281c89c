import GeoReplication.Attempt
import GeoReplication.Proofs.Program.Secures
import GeoReplication.Proofs.Site.Frame
import GeoReplication.Proofs.Store.Copied
import GeoReplication.Proofs.Store.Nodes

/-!
# Proofs/Replication/Attempts — jobs with nothing in their way

While jobs are performed time may pass and what is set up to go wrong may change, but nobody else
writes anything (`Site.Later`).  If the store answers every call and every copy succeeds
(`Site.Serves`), an attempt copies every part that its project has, each once (`secures_run`), and
draining a queue does so for all its jobs in their order (`secures_drain`).  The journal of the site
shows the copies that were made, and `Store.Copied` says what they leave in the store.
-/

namespace GeoReplication

open Program Time

/-- The copies that have ended, of which project and which part, in order. -/
def FetchNote.ended (notes : List FetchNote) : List (Int × Part) :=
  notes.filterMap fun note => if note.begins then none else some (note.project.id, note.part)

namespace Site

variable {s s' s'' : Site} {nodeId id : Int} {part : Part} {copies copies' : List (Int × Part)}

/-! ## Nothing else is written -/

/-- Time has passed, and nothing was written. -/
structure Later (s s' : Site) : Prop where
  now : s.now ≤ s'.now
  store : s'.store = s.store
  queues : s'.queues = s.queues
  journal : s'.journal = s.journal

namespace Later

theorem refl (s : Site) : Later s s := ⟨Instant.le_refl _, rfl, rfl, rfl⟩

theorem trans (h : Later s s') (h' : Later s' s'') : Later s s'' :=
  ⟨Instant.le_trans h.now h'.now, h'.store.trans h.store, h'.queues.trans h.queues,
    h'.journal.trans h.journal⟩

/-- A look into the store changes nothing. -/
theorem call (h : Later s s') {c : Call} (hc : (c.run s'.now s'.store).2 = s'.store) :
    Later s (s'.call c).2 := by
  refine h.trans ⟨?_, ?_, queues_call _ _, journal_call _ _⟩
  · rw [now_call]
    exact Instant.le_refl _
  · rcases s'.store_call c with hsame | hrun
    · exact hsame
    · exact hrun.trans hc

end Later

/-- A copy of a part has been made, but not recorded. -/
structure Fetched (id : Int) (part : Part) (s s' : Site) : Prop where
  now : s.now ≤ s'.now
  store : s'.store = s.store
  queues : s'.queues = s.queues
  journal : ∃ notes, s'.journal = s.journal ++ notes ∧ FetchNote.ended notes = [(id, part)]

theorem Fetched.later (h : Fetched id part s s') (hl : Later s' s'') : Fetched id part s s'' := by
  obtain ⟨notes, hnotes, hended⟩ := h.journal
  exact ⟨Instant.le_trans h.now hl.now, hl.store.trans h.store, hl.queues.trans h.queues, notes,
    hl.journal.trans hnotes, hended⟩

/-- Parts of projects have been copied for a node, in this order, and nothing else was written. -/
structure Copied (nodeId : Int) (copies : List (Int × Part)) (s s' : Site) : Prop where
  now : s.now ≤ s'.now
  store : s.store.Copied nodeId copies s'.store
  journal : ∃ notes, s'.journal = s.journal ++ notes ∧ FetchNote.ended notes = copies

namespace Copied

theorem refl (nodeId : Int) (s : Site) : Copied nodeId [] s s :=
  ⟨Instant.le_refl _, .refl nodeId _, [], (List.append_nil _).symm, rfl⟩

theorem trans (h : Copied nodeId copies s s') (h' : Copied nodeId copies' s' s'') :
    Copied nodeId (copies ++ copies') s s'' := by
  obtain ⟨notes, hnotes, hended⟩ := h.journal
  obtain ⟨notes', hnotes', hended'⟩ := h'.journal
  refine ⟨Instant.le_trans h.now h'.now, h.store.trans h'.store, notes ++ notes', ?_, ?_⟩
  · rw [hnotes', hnotes, List.append_assoc]
  · rw [← hended, ← hended']
    exact List.filterMap_append

theorem of_later (nodeId : Int) (h : Later s s') : Copied nodeId [] s s' := by
  refine ⟨h.now, ?_, [], by rw [h.journal, List.append_nil], rfl⟩
  rw [h.store]
  exact .refl nodeId _

theorem later (h : Copied nodeId copies s s') (hl : Later s' s'') : Copied nodeId copies s s'' := by
  have hboth := h.trans (.of_later nodeId hl)
  rwa [List.append_nil] at hboth

/-- What is done to queues does not matter. -/
theorem onQueue (h : Copied nodeId copies s s') (name : String) (c : QueueCall) :
    Copied nodeId copies s (s'.onQueue name c).2 := ⟨h.now, h.store, h.journal⟩

/-- A call that copies nothing. -/
theorem call {c : Call} (h : s.store.Copied nodeId [] (c.run s.now s.store).2) :
    Copied nodeId [] s (s.call c).2 := by
  refine ⟨?_, ?_, [], by rw [journal_call, List.append_nil], rfl⟩
  · rw [now_call]
    exact Instant.le_refl _
  · rcases s.store_call c with hsame | hrun
    · rw [hsame]
      exact .refl nodeId _
    · rwa [hrun]

/-- A part of a project that was copied and recorded. -/
theorem of_fetched {p : ProjectRow} {started : Instant}
    (hp : s.store.projects.get? id = some p) (ha : s.store.NothingAhead nodeId s.now)
    (hstarted : started.IsSortable) (hle : s.now ≤ started) (hf : Fetched id part s s')
    (hok : (s'.call (.recordSyncSuccess nodeId id part started)).1.isOk = true) :
    Copied nodeId [(id, part)] s (s'.call (.recordSyncSuccess nodeId id part started)).2 := by
  obtain ⟨r, hr⟩ := reply_of_isOk hok
  have hrun := run_of_call_ok hr
  refine ⟨?_, ?_, ?_⟩
  · rw [now_call]
    exact hf.now
  · rcases Call.settles_recordSyncSuccess s'.now nodeId id part s'.store started with
      ⟨e, herror⟩ | ⟨-, -, hw⟩
    · rw [hrun] at herror
      cases herror
    · rw [hrun, hf.store] at hw
      exact .of_succeed hp ha hstarted hle hw
  · rw [journal_call]
    exact hf.journal

end Copied

/-- A node can copy: it is registered, so is a primary, and nothing lies ahead. -/
structure CanCopy (s : Site) (nodeId : Int) : Prop where
  node : s.store.nodes.contains nodeId = true
  primary : s.store.HasPrimary
  ahead : s.store.NothingAhead nodeId s.now

theorem CanCopy.copied (h : s.CanCopy nodeId) (hc : Copied nodeId copies s s') :
    s'.CanCopy nodeId where
  node := by
    rw [hc.store.nodes]
    exact h.node
  primary := by
    rw [Store.HasPrimary, hc.store.nodes]
    exact h.primary
  ahead := hc.store.nothingAhead h.ahead hc.now

/-! ## Effects without a hitch -/

/-- An effect goes well: the store answers, or a copy succeeds and nothing happens meanwhile. -/
def serves (s : Site) : Effect → Bool
  | .store c => (s.call c).1.isOk
  | .fetch _ p part =>
    let rule := (MirrorRule.choose p.id part s.rules).1
    !rule.touch && rule.resyncNode.isNone && rule.error.isNone
  | _ => true

/-- An effect goes well, in a year that is written with four digits. -/
structure Serves (s : Site) (e : Effect) : Prop where
  year : s.now.IsSortable
  serves : s.serves e = true

instance (s : Site) (e : Effect) : Decidable (s.Serves e) :=
  decidable_of_iff (s.now.IsSortable ∧ s.serves e = true) ⟨fun h => ⟨h.1, h.2⟩, fun h => ⟨h.1, h.2⟩⟩

/-- A look into the store is answered from what is there. -/
theorem secures_look {excuse : Prop} {s₀ : Site} {c : Call} {P : c.Reply → Prop} (h : Later s₀ s)
    (hsame : ∀ now, (c.run now s₀.store).2 = s₀.store)
    (hP : ∀ now r, (c.run now s₀.store).1 = .ok r → P r) :
    (Program.call c).Secures Later Serves (Returns excuse fun r s' => P r ∧ Later s₀ s') s := by
  refine .call h (fun _ _ => Later.trans) fun s h hF => ?_
  obtain ⟨r, hr⟩ := reply_of_isOk hF.serves
  have hrun := run_of_call_ok hr
  have hread : (c.run s.now s₀.store).1 = .ok r := by rw [← h.store, hrun]
  rw [hr]
  refine ⟨hP _ r hread, h.call ?_⟩
  rw [h.store, hsame]

theorem le_now_pass (s : Site) (millis : Nat) : s.now ≤ (s.pass millis).now := by
  simp only [pass, Instant.addMillis, Instant.le_iff, nanosPerSecond]
  omega

theorem perform_fetch {primaryUrl : String} {p : Project}
    (h : s.serves (.fetch primaryUrl p part) = true) :
    (s.perform (.fetch primaryUrl p part)).1 = .ok () ∧
      Fetched p.id part s (s.perform (.fetch primaryUrl p part)).2 := by
  simp only [serves, Bool.and_eq_true, Bool.not_eq_true', Option.isNone_iff_eq_none] at h
  obtain ⟨⟨htouch, hresync⟩, herror⟩ := h
  have hend : s.perform (.fetch primaryUrl p part) = (.ok (),
      ((s.beginFetch primaryUrl p part).2.note (s.beginFetch primaryUrl p part).1 false)) := by
    simp only [perform, endFetch, meanwhile, beginFetch, htouch, hresync, herror]
    rfl
  rw [hend]
  refine ⟨rfl, le_now_pass _ _, rfl, rfl, _, List.append_assoc _ _ _, rfl⟩

end Site

namespace Attempt

open Site

variable {s : Site} {nodeId id : Int}

/-! ## Attempts -/

/-- **One part**: it is copied, and recorded as it was when the copy began. -/
theorem secures_part {n : Node} {p : Project} {row : ProjectRow} (primaryUrl : String) (part : Part)
    (hs : s.CanCopy n.id) (hp : s.store.projects.get? p.id = some row) :
    (Attempt.part n p primaryUrl part).Secures Later Serves (Returns False fun state s' =>
      state = .synced ∧ s.Copied n.id [(p.id, part)] s' ∧ s'.queues = s.queues) s := by
  refine Secures.bind (M := fun started s' => (s.now ≤ started ∧ started.IsSortable) ∧ Later s s')
    (.clock (I := Later s) (.refl s) (fun _ _ => Later.trans) fun s' h hF =>
      ⟨⟨h.now, hF.year⟩, h⟩) ?_
  rintro started s₁ ⟨⟨hle, hstarted⟩, h₁⟩
  have hfetch : (Program.fetch primaryUrl p part).Secures Later Serves
      (Returns False fun _ s' => Fetched p.id part s s') s₁ := by
    refine .fetch h₁ (fun _ _ => Later.trans) fun s' h hF => ?_
    obtain ⟨hok, hfetched⟩ := perform_fetch hF.serves
    rw [hok]
    exact ⟨Instant.le_trans h.now hfetched.now, hfetched.store.trans h.store,
      hfetched.queues.trans h.queues, h.journal ▸ hfetched.journal⟩
  refine (hfetch.attempt_ok id).bind ?_
  rintro _ s₂ ⟨⟨⟩, rfl, h₂⟩
  refine Secures.bind (M := fun _ s' => s.Copied n.id [(p.id, part)] s' ∧ s'.queues = s.queues)
    (.call h₂ (fun _ _ => Fetched.later) fun s' h hF => ?_) ?_
  · obtain ⟨r, hr⟩ := reply_of_isOk hF.serves
    have hcopied := Copied.of_fetched hp hs.ahead hstarted hle h hF.serves
    rw [hr]
    exact ⟨hcopied, (queues_call _ _).trans h.queues⟩
  · exact fun _ s₃ h₃ => ⟨rfl, h₃⟩

/-- One part after others. -/
theorem secures_next {n : Node} {p : Project} {row : ProjectRow} {copies : List (Int × Part)}
    {s' : Site} (primaryUrl : String) (part : Part) (hs : s.CanCopy n.id)
    (hp : s.store.projects.get? p.id = some row) (h : s.Copied n.id copies s')
    (hqueues : s'.queues = s.queues) :
    (Attempt.part n p primaryUrl part).Secures Later Serves (Returns False fun state s'' =>
      state = .synced ∧ s.Copied n.id (copies ++ [(p.id, part)]) s'' ∧
        s''.queues = s.queues) s' := by
  obtain ⟨row', hp', -⟩ := h.store.project hp
  refine (secures_part primaryUrl part (hs.copied h) hp').weaken ?_
  rintro state s'' ⟨hstate, h', hqueues'⟩
  exact ⟨hstate, h.trans h', hqueues'.trans hqueues⟩

/-- The measured size of a repository is forgotten. -/
theorem secures_expire {copies : List (Int × Part)} {s' : Site} (id : Int)
    (h : s.Copied nodeId copies s') (hqueues : s'.queues = s.queues) :
    (Program.call (.expireRepositoryCache id)).Secures Later Serves (Returns False fun _ s'' =>
      s.Copied nodeId copies s'' ∧ s''.queues = s.queues) s' := by
  refine .call (I := fun s' => s.Copied nodeId copies s' ∧ s'.queues = s.queues) ⟨h, hqueues⟩
    (fun _ _ h hl => ⟨h.1.later hl, hl.queues.trans h.2⟩) fun s' h hF => ?_
  obtain ⟨r, hr⟩ := reply_of_isOk hF.serves
  have hboth := h.1.trans (.call (.of_expire nodeId id s'.store))
  rw [List.append_nil] at hboth
  rw [hr]
  exact ⟨hboth, (queues_call _ _).trans h.2⟩

theorem secures_orElse {α β : Type} {others : Site → Site → Prop} {F : Site → Effect → Prop}
    {post : Except Failure β → Site → Prop} {a : α} {next : α → Program β} (whenNone : Error)
    (h : (next a).Secures others F post s) :
    (Program.orElse whenNone (some a) >>= next).Secures others F post s := h

/-- **One attempt** copies every part that the project has. -/
theorem secures_run {f : Features} {p : ProjectRow} (hs : s.CanCopy nodeId)
    (hp : s.store.projects.get? id = some p) :
    (Attempt.run f nodeId id).Secures Later Serves (Returns False fun _ s' =>
      s.Copied nodeId (s.store.copiesOf f.wikiSync id) s' ∧ s'.queues = s.queues) s := by
  refine (secures_look (c := .getNode nodeId) (P := fun n => ∃ m, n = some m ∧ m.id = nodeId)
    (.refl s) (fun _ => Call.snd_lift_read _ _) fun now n hn => ?_).bind ?_
  · have hread := Call.fst_lift_read.mp hn
    obtain ⟨m, rfl⟩ := Option.isSome_iff_exists.mp ((Store.isSome_readNode hread).trans hs.node)
    obtain ⟨row, -, hholds⟩ := Store.readNode_eq_some_iff.mp hread
    exact ⟨m, rfl, hholds.id⟩
  rintro _ s₁ ⟨⟨n, rfl, rfl⟩, h₁⟩
  refine secures_orElse _ ?_
  refine (secures_look (P := fun q => ∃ now, q = some (p.record now id)) h₁ (fun _ => rfl)
    fun now q hq => ?_).bind ?_
  · exact ⟨now, (Except.ok.inj hq).symm.trans (congrArg (Option.map _) hp)⟩
  rintro _ s₂ ⟨⟨now, rfl⟩, h₂⟩
  refine secures_orElse _ ?_
  refine (secures_look (c := .getPrimaryNode) (P := fun q => ∃ m, q = some m) h₂
    (fun _ => Call.snd_lift_read _ _) fun now q hq => ?_).bind ?_
  · have hread := Call.fst_lift_read.mp hq
    exact Option.isSome_iff_exists.mp ((Store.isSome_readPrimary hread).mpr hs.primary)
  rintro _ s₃ ⟨⟨primary, rfl⟩, h₃⟩
  refine secures_orElse _ ?_
  have hbegun : s.Copied n.id [] s₃ := .of_later n.id h₃
  refine (secures_next (p := p.record now id) primary.url .repository hs hp hbegun
    h₃.queues).bind ?_
  rintro _ s₄ ⟨rfl, h₄, hqueues₄⟩
  have hwikis : (p.record now id).wikiEnabled = p.wikiEnabled := rfl
  dsimp only
  rw [Store.copiesOf_of_get? hp, hwikis]
  by_cases hwiki : (p.wikiEnabled && f.wikiSync) = true
  · rw [if_pos hwiki, if_pos hwiki, map_eq_pure_bind, Program.bind_assoc]
    refine (secures_next (p := p.record now id) primary.url .wiki hs hp h₄ hqueues₄).bind ?_
    rintro _ s₅ ⟨-, h₅, hqueues₅⟩
    exact (secures_expire id h₅ hqueues₅).bind fun _ _ h => h
  · rw [if_neg hwiki, if_neg hwiki]
    exact (secures_expire id h₄ hqueues₄).bind fun _ _ h => h

/-! ## Jobs -/

/-- **One job** leaves its queue, and every part of its project is copied. -/
theorem secures_perform {f : Features} {p : ProjectRow} {queue : String} {q : JobQueue} {job : Job}
    (hs : s.CanCopy job.nodeId) (hp : s.store.projects.get? job.projectId = some p)
    (hq : s.queues.get? queue = some q) :
    (Attempt.perform f queue job).Secures Later Serves (Returns False fun _ s' =>
      s.Copied job.nodeId (s.store.copiesOf f.wikiSync job.projectId) s' ∧
        s'.queues.get? queue = some (q.finish job.projectId)) s := by
  refine ((secures_run hs hp).attempt_ok id).bind ?_
  rintro _ s₁ ⟨-, -, h₁, hqueues₁⟩
  refine .queue (I := fun s' => s.Copied job.nodeId (s.store.copiesOf f.wikiSync job.projectId) s' ∧
    s'.queues = s.queues) ⟨h₁, hqueues₁⟩ (fun _ _ h hl => ⟨h.1.later hl, hl.queues.trans h.2⟩)
    fun s' h => ⟨h.1.onQueue _ _, ?_⟩
  rw [get?_onQueue _ _ _ _ (by rw [h.2, hq]), if_pos rfl]
  rfl

/-- **Draining a queue** performs every job in it. -/
theorem secures_drain {f : Features} {queue : String} :
    ∀ (jobs : List Job) {nodeId : Int} {s : Site}, s.CanCopy nodeId →
      s.queues.get? queue = some ⟨jobs, []⟩ →
      (∀ job ∈ jobs, job.nodeId = nodeId ∧ s.store.projects.contains job.projectId = true) →
      (Attempt.drain f queue jobs.length).Secures Later Serves (Returns False fun count s' =>
        count = jobs.length ∧
        s.Copied nodeId (jobs.flatMap fun job => s.store.copiesOf f.wikiSync job.projectId) s' ∧
        s'.queues.get? queue = some .empty) s
  | [], nodeId, s, _, hq, _ => ⟨rfl, .refl nodeId s, hq⟩
  | job :: jobs, nodeId, s, hs, hq, hjobs => by
    obtain ⟨rfl, hthere⟩ := hjobs job List.mem_cons_self
    obtain ⟨p, hp⟩ := Option.isSome_iff_exists.mp hthere
    refine Secures.bind (M := fun taken s' => taken = some job ∧ s.Copied job.nodeId [] s' ∧
      s'.queues.get? queue = some ⟨jobs, [job.projectId]⟩) ?_ ?_
    · refine .queue (I := Later s) (.refl s) (fun _ _ => Later.trans) fun s' h => ?_
      have hq' : s'.queues.get? queue = some ⟨job :: jobs, []⟩ := by rw [h.queues, hq]
      refine ⟨onQueue_reply _ _ _ hq', (Copied.of_later _ h).onQueue _ _, ?_⟩
      rw [get?_onQueue _ _ _ _ hq', if_pos rfl]
      rfl
    rintro _ s₁ ⟨rfl, h₁, hq₁⟩
    obtain ⟨p₁, hp₁, -⟩ := h₁.store.project hp
    refine (secures_perform (hs.copied h₁) hp₁ hq₁).bind ?_
    rintro _ s₂ ⟨h₂, hq₂⟩
    have hfinished : (⟨jobs, [job.projectId]⟩ : JobQueue).finish job.projectId = ⟨jobs, []⟩ := by
      simp [JobQueue.finish]
    rw [hfinished] at hq₂
    have hboth := h₁.trans h₂
    rw [List.nil_append, h₁.store.copiesOf] at hboth
    have hjobs₂ : ∀ job' ∈ jobs, job'.nodeId = job.nodeId ∧
        s₂.store.projects.contains job'.projectId = true := fun job' hjob' => by
      obtain ⟨hnode, hthere⟩ := hjobs job' (List.mem_cons_of_mem _ hjob')
      obtain ⟨p', hp'⟩ := Option.isSome_iff_exists.mp hthere
      obtain ⟨p'', hp'', -⟩ := hboth.store.project hp'
      exact ⟨hnode, Option.isSome_iff_exists.mpr ⟨p'', hp''⟩⟩
    refine (secures_drain jobs (hs.copied hboth) hq₂ hjobs₂).bind ?_
    rintro _ s₃ ⟨rfl, h₃, hq₃⟩
    refine ⟨rfl, ?_, hq₃⟩
    have hall := hboth.trans h₃
    simp only [hboth.store.copiesOf] at hall
    exact hall

end Attempt

end GeoReplication
