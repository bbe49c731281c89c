import GeoReplication.Attempt
import GeoReplication.Proofs.Site.Turns
import GeoReplication.Proofs.Store.WithoutWikis

/-!
# Proofs/Replication/WithoutWikis — attempts when wikis are not copied

When wikis are not copied, an attempt is one at the repository.  It fetches no wiki and leaves the
halves of registries for wikis as they are (`every_run`, `Every.keepsWikis`), and it goes the same
way whatever is kept of wikis in the store (`alike_run`).
-/

namespace GeoReplication

open Program GeoReplication.Time

/-! ## Wikis are left alone -/

/-- The operation removes no registry, and changes none but in its half for the repository. -/
def Call.LeavesWikis : Call → Prop
  | recordSyncSuccess _ _ part _ => part = .repository
  | recordSyncFailure _ _ part _ => part = .repository
  | requestResync _ _ part => part = .repository
  | deleteProject _ => False
  | deleteNode _ => False
  | deleteRegistry _ _ => False
  | _ => True

/-- No wiki is fetched, and no registry is touched but in its half for the repository. -/
def Effect.LeavesWikis : Effect → Prop
  | .store c => c.LeavesWikis
  | .fetch _ _ part => part = .repository
  | _ => True

/-- Every registry is still there, with the half for the wiki that it had. -/
def Store.KeepsWikis (s s' : Store) : Prop :=
  ∀ key row, s.registries.get? key = some row →
    ∃ row', s'.registries.get? key = some row' ∧ row'.wiki = row.wiki

namespace Store.KeepsWikis

variable {s s' s'' : Store}

theorem refl (s : Store) : s.KeepsWikis s := fun _ row h => ⟨row, h, rfl⟩

theorem trans (h : s.KeepsWikis s') (h' : s'.KeepsWikis s'') : s.KeepsWikis s'' :=
  fun key row hrow => by
    obtain ⟨row', hrow', hsame⟩ := h key row hrow
    obtain ⟨row'', hrow'', hsame'⟩ := h' key row' hrow'
    exact ⟨row'', hrow'', hsame'.trans hsame⟩

theorem rewrites {now : Instant} {key : Int × Int} {f : PartRow → PartRow}
    (h : Rewrites now key .repository f s s') : s.KeepsWikis s' := fun key' row hrow => by
  obtain ⟨row', hrow', hhalves⟩ := h.halves hrow
  have hwiki := hhalves .wiki
  rw [if_neg (by simp)] at hwiki
  exact ⟨row', hrow', hwiki⟩

end Store.KeepsWikis

theorem Call.LeavesWikis.run {c : Call} (hc : c.LeavesWikis) (now : Instant) (s : Store) :
    s.KeepsWikis (c.run now s).2 := by
  rcases hrewrite : c.rewrite? now with _ | ⟨key, part, f⟩
  · have hplace : .registries ∉ c.writes := by
      cases c with
      | recordSyncSuccess nodeId projectId part started => cases hrewrite
      | recordSyncFailure nodeId projectId part reason => cases hrewrite
      | requestResync nodeId projectId part => cases hrewrite
      | deleteProject id => exact hc.elim
      | deleteNode id => exact hc.elim
      | deleteRegistry nodeId projectId => exact hc.elim
      | _ => simp [Call.writes]
    intro key row hrow
    have hsame : (c.run now s).2.registries = s.registries := c.sameBut_run now s _ hplace
    exact ⟨row, by rw [hsame, hrow], rfl⟩
  · have hpart : part = .repository := by
      cases c <;> cases hrewrite <;> exact hc
    subst hpart
    rcases Call.settles_rewrite (s := s) hrewrite with ⟨e, hrun⟩ | ⟨-, -, hw⟩
    · rw [hrun]
      exact .refl s
    · exact .rewrites hw

theorem Call.LeavesWikis.call {c : Call} (hc : c.LeavesWikis) (s : Site) :
    s.store.KeepsWikis (s.call c).2.store := by
  rcases s.store_call c with hsame | hrun
  · rw [hsame]
    exact .refl _
  · rw [hrun]
    exact hc.run _ _

theorem Effect.LeavesWikis.perform {e : Effect} (he : e.LeavesWikis) (s : Site) :
    s.store.KeepsWikis (s.perform e).2.store := by
  cases e with
  | store c => exact Call.LeavesWikis.call he s
  | fetch primaryUrl p part =>
    let c := (s.beginFetch primaryUrl p part).1
    let begun := (s.beginFetch primaryUrl p part).2.note c false
    change s.store.KeepsWikis ((s.beginFetch primaryUrl p part).2.endFetch c).2.store
    rw [Site.endFetch_snd]
    obtain ⟨touched, htouched, hdone⟩ := begun.meanwhile_snd c
    have hfirst : s.store.KeepsWikis touched.store := by
      rcases htouched with rfl | rfl
      · exact .refl s.store
      · exact Call.LeavesWikis.call (c := .touchProject _ _ _) trivial begun
    rcases hdone with hdone | ⟨nodeId, -, hdone⟩ <;> rw [hdone]
    · exact hfirst
    · exact hfirst.trans (Call.LeavesWikis.call (c := .requestResync _ _ _) he touched)
  | lease c =>
    change s.store.KeepsWikis (s.askLease c).2.store
    rw [Site.store_askLease]
    exact .refl _
  | _ => exact .refl _

/-- **A program that leaves wikis alone** keeps the halves for wikis of all registries. -/
theorem Program.Every.keepsWikis {α : Type} {p : α → Prop} {t : Program α}
    (h : t.Every Effect.LeavesWikis p) (s : Site) : s.store.KeepsWikis (t.run s).2.store :=
  h.run_keeps (I := fun s' => s.store.KeepsWikis s'.store)
    (fun s' _ he hs => hs.trans (he.perform s')) (.refl s.store)

/-! ## Copies in stores that differ in wikis -/

/-- The note without what is known of the wiki of its project. -/
def FetchNote.withoutWiki (n : FetchNote) : FetchNote := { n with project := n.project.withoutWiki }

/-- The notes are of the same copies, of projects that differ in their wikis at most. -/
def FetchNote.SameButWikis (notes notes' : List FetchNote) : Prop :=
  notes'.map FetchNote.withoutWiki = notes.map FetchNote.withoutWiki

/-- The sites differ in what is kept of wikis only. -/
abbrev Site.WikisAside : Site → Site → Prop :=
  Site.Beside Store.WikisAside FetchNote.SameButWikis

namespace Site.WikisAside

variable {s s' : Site} {c : Copying} {p' : Project}

theorem note (h : s.WikisAside s') (hp : p'.withoutWiki = c.project.withoutWiki) (begins : Bool) :
    (s.note c begins).WikisAside (s'.note { c with project := p' } begins) := by
  cases h with
  | intro hstore hjournal =>
    refine .intro hstore ?_
    simp only [FetchNote.SameButWikis, Site.note, List.map_append, List.map_cons, List.map_nil,
      FetchNote.withoutWiki, hp]
    exact congrArg (· ++ _) hjournal

theorem agree_call (h : s.WikisAside s') {c : Call} {r : c.Reply → c.Reply → Prop}
    (hc : c.Alike r) :
    Agree r (s.call c).1 (s'.call c).1 ∧ (s.call c).2.WikisAside (s'.call c).2 :=
  h.call (hc s.now s.store s'.store h.store)

/-- What happens in the course of a copy of a repository. -/
theorem meanwhile (h : s.WikisAside s') (hpart : c.part = .repository)
    (hid : p'.id = c.project.id) :
    Agree (fun _ _ => True) (s.meanwhile c).1 (s'.meanwhile { c with project := p' }).1 ∧
      (s.meanwhile c).2.WikisAside (s'.meanwhile { c with project := p' }).2 := by
  have hnow : s'.now = s.now := by
    cases h
    rfl
  have htouch : Agree (fun _ _ => True)
      (if c.rule.touch then s.call (.touchProject c.project.id c.part s.now) else (.ok (), s)).1
      (if c.rule.touch then s'.call (.touchProject p'.id c.part s'.now) else (.ok (), s')).1 ∧
      (if c.rule.touch then s.call (.touchProject c.project.id c.part s.now)
        else (.ok (), s)).2.WikisAside
      (if c.rule.touch then s'.call (.touchProject p'.id c.part s'.now) else (.ok (), s')).2 := by
    rw [hid, hnow, hpart]
    split
    · exact h.agree_call (Call.alike_touchProject _ _)
    · exact ⟨trivial, h⟩
  rw [Site.meanwhile, Site.meanwhile]
  revert htouch
  rcases (if c.rule.touch then s.call (.touchProject c.project.id c.part s.now)
    else (.ok (), s)) with ⟨f | ⟨⟩, s₁⟩ <;>
  rcases (if c.rule.touch then s'.call (.touchProject p'.id c.part s'.now)
    else (.ok (), s')) with ⟨f' | ⟨⟩, s₁'⟩ <;>
  rintro ⟨hagree, h₁⟩
  · exact ⟨hagree, h₁⟩
  · exact hagree.elim
  · exact hagree.elim
  · cases c.rule.resyncNode with
    | none => exact ⟨trivial, h₁⟩
    | some nodeId =>
      dsimp only
      rw [hid, hpart]
      exact h₁.agree_call (Call.alike_requestResync _ _)

theorem proceed (h : s.WikisAside s') (rules : List MirrorRule) (millis : Nat) :
    ({ s with rules }.pass millis).WikisAside ({ s' with rules }.pass millis) := by
  cases h with
  | intro hstore hjournal => exact .intro hstore hjournal

/-- A copy of a repository ends the same way. -/
theorem endFetch (h : s.WikisAside s') (hpart : c.part = .repository)
    (hp : p'.withoutWiki = c.project.withoutWiki) :
    Agree (fun _ _ => True) (s.endFetch c).1 (s'.endFetch { c with project := p' }).1 ∧
      (s.endFetch c).2.WikisAside (s'.endFetch { c with project := p' }).2 := by
  have hid : p'.id = c.project.id := (congrArg Project.id hp :)
  have hmeanwhile := (h.note hp false).meanwhile hpart hid
  rw [Site.endFetch, Site.endFetch]
  revert hmeanwhile
  rcases (s.note c false).meanwhile c with ⟨f | ⟨⟩, s₁⟩ <;>
  rcases (s'.note { c with project := p' } false).meanwhile { c with project := p' } with
    ⟨f' | ⟨⟩, s₁'⟩ <;>
  rintro ⟨hagree, h₁⟩
  · exact ⟨hagree, h₁⟩
  · exact hagree.elim
  · exact hagree.elim
  · cases hend : c.rule.error with
    | none =>
      exact ⟨trivial, h₁⟩
    | some e =>
      exact ⟨rfl, h₁⟩

/-- **A copy of a repository** goes the same way, and leaves the sites different in wikis only. -/
theorem fetch (h : s.WikisAside s') {p p' : Project} (hp : p'.withoutWiki = p.withoutWiki)
    (primaryUrl : String) :
    Agree (fun _ _ => True) (s.perform (.fetch primaryUrl p .repository)).1
        (s'.perform (.fetch primaryUrl p' .repository)).1 ∧
      (s.perform (.fetch primaryUrl p .repository)).2.WikisAside
        (s'.perform (.fetch primaryUrl p' .repository)).2 := by
  have hid : p'.id = p.id := (congrArg Project.id hp :)
  have hrules : s'.rules = s.rules := by
    cases h
    rfl
  let rule := MirrorRule.choose p.id .repository s.rules
  let c : Copying := ⟨primaryUrl, p, .repository, rule.1⟩
  have hbegun := (h.note (c := c) hp true).proceed rule.2 rule.1.advance
  have hended := hbegun.endFetch (c := c) rfl hp
  simp only [perform, beginFetch, hid, hrules]
  exact hended

end Site.WikisAside

/-! ## Attempts -/

namespace Attempt

variable {f : Features} {nodeId projectId : Int}

theorem alike_call {c : Call} {r : c.Reply → c.Reply → Prop} (hc : c.Alike r) :
    Alike Site.WikisAside r (Program.call c) (Program.call c) :=
  .call fun _ _ h => h.agree_call hc

/-- The value of an option that is the same in both runs, as far as `g` shows. -/
theorem alike_orElse {α β : Type} {g : α → β} {o o' : Option α} (h : o.map g = o'.map g)
    (whenNone : Error) :
    Alike Site.WikisAside (fun a b => g a = g b) (Program.orElse whenNone o)
      (Program.orElse whenNone o') := by
  rcases both_of_map_eq h with ⟨rfl, rfl⟩ | ⟨a, b, rfl, rfl, hsame⟩
  · exact .fail whenNone
  · exact .pure hsame

/-- The repository of a project is attempted the same way, whatever is known of its wiki. -/
theorem alike_part {p p' : Project} (hp : p'.withoutWiki = p.withoutWiki) (n : Node)
    (primaryUrl : String) :
    Alike Site.WikisAside (· = ·) (part n p primaryUrl .repository)
      (part n p' primaryUrl .repository) := by
  have hid : p'.id = p.id := (congrArg Project.id hp :)
  have hfetch : Alike Site.WikisAside (fun _ _ => True)
      (Program.fetch primaryUrl p .repository) (Program.fetch primaryUrl p' .repository) :=
    fun s s' h => by
      rw [run_fetch, run_fetch]
      exact h.fetch hp primaryUrl
  refine alike_clock.bind_eq fun started => ?_
  refine hfetch.attempt.bind fun r r' hr => ?_
  cases r <;> cases r'
  · obtain rfl := hr
    dsimp only
    rw [hid]
    exact (alike_call (Call.alike_recordSyncFailure _ _ _)).bind fun _ _ _ => .pure rfl
  · exact hr.elim
  · exact hr.elim
  · dsimp only
    rw [hid]
    exact (alike_call (Call.alike_recordSyncSuccess _ _ _)).bind fun _ _ _ => .pure rfl

/-- A repository is attempted without touching the wiki. -/
theorem every_part (n : Node) (p : Project) (primaryUrl : String) :
    (part n p primaryUrl .repository).Every Effect.LeavesWikis fun _ => True := by
  refine Every.bind (p := fun _ => True) ⟨trivial, fun _ => trivial⟩ fun started _ => ?_
  have hfetch : (Program.fetch primaryUrl p .repository).Every Effect.LeavesWikis fun _ => True :=
    ⟨rfl, fun r => .ofExcept r⟩
  refine hfetch.attempt.bind fun r _ => ?_
  cases r with
  | ok _ => exact Every.bind (p := fun _ => True) (.call rfl) fun _ _ => trivial
  | error e => exact Every.bind (p := fun _ => True) (.call rfl) fun _ _ => trivial

theorem every_orElse {E : Effect → Prop} {α : Type} (whenNone : Error) (o : Option α) :
    (Program.orElse whenNone o).Every E fun _ => True := by cases o <;> trivial

/-- **An attempt leaves wikis alone** when they are not copied. -/
theorem every_run (hf : f.wikiSync = false) (nodeId projectId : Int) :
    (run f nodeId projectId).Every Effect.LeavesWikis fun _ => True := by
  refine Every.bind (p := fun _ => True) (.call trivial) fun o _ => ?_
  refine (every_orElse _ o).bind fun n _ => ?_
  refine Every.bind (p := fun _ => True) (.call trivial) fun o _ => ?_
  refine (every_orElse _ o).bind fun p _ => ?_
  refine Every.bind (p := fun _ => True) (.call trivial) fun o _ => ?_
  refine (every_orElse _ o).bind fun primary _ => ?_
  refine (every_part n p primary.url).bind fun repository _ => ?_
  simp only [hf, Bool.and_false, Bool.false_eq_true, if_false, pure_bind]
  split
  · exact Every.bind (p := fun _ => True) (.call trivial) fun _ _ => trivial
  · trivial

/-- **An attempt goes the same way**, whatever is kept of wikis in the store. -/
theorem alike_run (hf : f.wikiSync = false) (nodeId projectId : Int) :
    Alike Site.WikisAside (· = ·) (run f nodeId projectId) (run f nodeId projectId) := by
  refine (alike_call (Call.alike_getNode nodeId)).bind_eq fun o => ?_
  refine (alike_orElse (g := id) rfl _).bind_eq fun n => ?_
  refine (alike_call (Call.alike_getProject projectId)).bind fun o o' ho => ?_
  refine (alike_orElse ho _).bind fun p p' hp => ?_
  refine (alike_call Call.alike_getPrimaryNode).bind_eq fun o => ?_
  refine (alike_orElse (g := id) rfl _).bind_eq fun primary => ?_
  refine (alike_part hp.symm n primary.url).bind_eq fun repository => ?_
  have hid : p'.id = p.id := (congrArg Project.id hp.symm :)
  simp only [hf, Bool.and_false, Bool.false_eq_true, if_false, pure_bind]
  split
  · rw [hid]
    exact (alike_call (Call.alike_expireRepositoryCache _)).bind fun _ _ _ => .pure rfl
  · exact .pure rfl

end Attempt

end GeoReplication
