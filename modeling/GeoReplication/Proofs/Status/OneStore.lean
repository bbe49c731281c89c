import GeoReplication.Proofs.Status.AddsUp

/-!
# Proofs/Status/OneStore — the status that one store gives

While nothing is made to fail and the health check only asks, all of a status but health and lag is
read off one store at one time (`Store.Shows`, `run_compute`), whether or not the rows read can be
made sense of.
-/

namespace GeoReplication

open Program GeoReplication.Time

/-- The effect is a question: to the store, or to the clock. -/
def Effect.IsQuestion : Effect → Prop
  | .store c => c.writes = []
  | .clock => True
  | _ => False

/-- The check asks, and does not overflow. -/
structure HealthCheck.Asks (h : HealthCheck) : Prop where
  looks : h.Looks
  process (checks : List String) : (h.process checks).Every Effect.IsQuestion fun _ => True
  lag : h.lag.Every Effect.IsQuestion fun _ => True

/-! ## The check of the installation itself -/

namespace Health

theorem every_attempt {c : Call} (hc : c.writes = []) :
    (Program.call c).attempt.Every Effect.IsQuestion fun _ => True :=
  (Every.call (E := Effect.IsQuestion) hc).attempt.imp fun _ _ => trivial

theorem every_logFailures (n : Node) :
    (logFailures n).Every Effect.IsQuestion fun _ => True := by
  refine (every_attempt rfl).bind fun cursor _ => ?_
  refine (every_attempt rfl).bind fun last _ => ?_
  split
  · dsimp only
    split <;> trivial
  all_goals trivial

theorem every_failures (c : Config) (nodeUrl : String) :
    (failures c nodeUrl).Every Effect.IsQuestion fun _ => True := by
  refine (every_attempt rfl).bind fun ping _ => ?_
  split
  · trivial
  · refine (every_attempt rfl).bind fun node _ => ?_
    split
    · trivial
    · trivial
    · exact (every_logFailures _).bind fun _ _ => trivial

theorem every_process (c : Config) (nodeUrl : String) :
    ∀ checks : List String, (process c nodeUrl checks).Every Effect.IsQuestion fun _ => True
  | [] => trivial
  | check :: checks => by
      rw [process]
      split
      · exact (every_failures c nodeUrl).bind fun _ _ =>
          (every_process c nodeUrl checks).bind fun _ _ => trivial
      · trivial

theorem every_lag : lag.Every Effect.IsQuestion fun _ => True := by
  refine Every.bind (p := fun _ => True) (.call rfl) fun beat _ => ?_
  split
  · trivial
  · exact ⟨trivial, fun _ => trivial⟩

end Health

theorem HealthCheck.asks_localTo (c : Config) (nodeUrl : String) : (localTo c nodeUrl).Asks where
  looks := looks_localTo c nodeUrl
  process checks := (Health.every_process c nodeUrl checks).bind fun _ _ => trivial
  lag := Health.every_lag

/-! ## A store that stands still -/

/-- The site has this store and this time, and nothing is made to fail. -/
structure Site.Stands (now : Instant) (store : Store) (s : Site) : Prop where
  now : s.now = now
  store : s.store = store
  faults : s.faults = []

variable {now : Instant} {store : Store} {s : Site}

theorem Site.Stands.perform (h : s.Stands now store) {e : Effect} (he : e.IsQuestion) :
    (s.perform e).2.Stands now store := by
  cases e with
  | store c =>
    refine ⟨(s.now_call c).trans h.now, (s.store_call_of_writes_nil he).trans h.store, ?_⟩
    change (s.call c).2.faults = []
    rw [Site.call, h.faults]
    rfl
  | clock => exact h
  | _ => exact he.elim

/-- The answer to a question, or `default` if it cannot be given. -/
def Call.answer (c : Call) (now : Instant) (store : Store) (default : c.Reply) : c.Reply :=
  match (c.run now store).1 with
  | .ok r => r
  | .error _ => default

/-- What a store shows in a status of the node. -/
structure Store.Shows (store : Store) (now : Instant) (f : Features) (n : Node) (st : NodeStatus) :
    Prop where
  repositories : st.repositories = .of (store.projectCount (.of n f.namespaceRestrictions))
    (store.registryCount (.of n f.namespaceRestrictions) .repository .synced)
    (store.registryCount (.of n f.namespaceRestrictions) .repository .syncFailed)
  files (c : FileClass) : st.files c = (store.fileCounts (.of n f.namespaceRestrictions) c).copies
  cursorEventId : st.cursorEventId = if n.isSecondary then store.cursors.get? n.id else none
  cursorEventDate : st.cursorEventDate =
    if n.isSecondary then (store.cursors.get? n.id).bind fun eventId =>
      ((Call.getEvent eventId).answer now store none).map (·.createdAt)
    else none

namespace StatusReport

variable {h : HealthCheck} {P : Site → Effect → Prop}

/-- A question is answered as the store has it. -/
theorem achieves_ask {c : Call} (hc : c.writes = []) (d : c.Reply) (hs : s.Stands now store) :
    Achieves P (orDefault d (call c)) s fun r s' =>
      r = c.answer now store d ∧ s'.Stands now store := by
  have hreply : (s.call c).1 = (c.run now store).1 := by
    rw [Site.call, hs.faults, ← hs.now, ← hs.store]
    rfl
  have hafter := hs.perform (e := .store c) hc
  have hasked : Achieves P (call c).attempt s fun r s' =>
      ((c.run now store).1 = .ok (c.answer now store d) ∧ r = .ok (c.answer now store d) ∨
        c.answer now store d = d ∧ ∃ e, r = .error e) ∧ s'.Stands now store := fun _ => by
    have hoverflow := Call.run_ne_overflow hc now store
    have hcall : s.call c = ((c.run now store).1, (s.call c).2) := Prod.ext hreply rfl
    rw [run_attempt, run_call, hcall, Call.answer]
    rcases hrun : (c.run now store).1 with (e | o) | r
    · exact ⟨_, _, rfl, .inr ⟨rfl, e, rfl⟩, hafter⟩
    · exact absurd hrun (hoverflow o)
    · exact ⟨_, _, rfl, .inl ⟨rfl, rfl⟩, hafter⟩
  refine hasked.bind ?_
  rintro r s' ⟨⟨-, rfl⟩ | ⟨hd, e, rfl⟩, hs'⟩
  · exact .pure ⟨rfl, hs'⟩
  · exact .pure ⟨hd.symm, hs'⟩

/-- What asks and is caught ends with a value, and leaves the site standing. -/
theorem achieves_asked {α : Type} {t : Program α} (ht : t.Looks)
    (hask : t.Every Effect.IsQuestion fun _ => True) (hs : s.Stands now store) :
    Achieves P t.attempt s fun _ s' => s'.Stands now store :=
  .attempt_of_ne_overflow (ht s).2 fun _ =>
    hask.run_keeps (I := Site.Stands now store) (fun _ _ he hs => hs.perform he) hs

theorem achieves_checkup_asked (hh : h.Asks) (n : Node) (hs : s.Stands now store) :
    Achieves P (checkup h n) s fun _ s' => s'.Stands now store := by
  rw [checkup]
  split
  · exact (achieves_asked (hh.looks.process _) (hh.process _) hs).bind fun r s' hs' => by
      cases r <;> exact .pure hs'
  · exact .pure hs

theorem achieves_delay_asked (hh : h.Asks) (n : Node) (hs : s.Stands now store) :
    Achieves P (delay h n) s fun _ s' => s'.Stands now store := by
  rw [delay]
  split
  · exact (achieves_asked hh.looks.lag hh.lag hs).bind fun r s' hs' => by
      cases r <;> exact .pure hs'
  · exact .pure hs

theorem achieves_repositories_asked {scope : Scope} (hs : s.Stands now store) :
    Achieves P (repositories scope) s fun r s' =>
      r = .of (store.projectCount scope) (store.registryCount scope .repository .synced)
        (store.registryCount scope .repository .syncFailed) ∧ s'.Stands now store := by
  refine (achieves_ask (c := .countProjects scope) rfl 0 hs).bind ?_
  rintro total s₁ ⟨rfl, h₁⟩
  refine (achieves_ask (c := .countRegistries scope .repository .synced) rfl 0 h₁).bind ?_
  rintro synced s₂ ⟨rfl, h₂⟩
  refine (achieves_ask (c := .countRegistries scope .repository .syncFailed) rfl 0 h₂).bind ?_
  rintro failed s₃ ⟨rfl, h₃⟩
  exact .pure ⟨rfl, h₃⟩

theorem achieves_files_asked {scope : Scope} (c : FileClass) (hs : s.Stands now store) :
    Achieves P (files scope c) s fun r s' =>
      r = (store.fileCounts scope c).copies ∧ s'.Stands now store := by
  refine (achieves_ask (c := .countFiles scope c) rfl ⟨0, 0, 0⟩ hs).bind ?_
  rintro counts s₁ ⟨rfl, h₁⟩
  exact .pure ⟨rfl, h₁⟩

/-- The cursor of the node and the date of the event there go into a status that had neither. -/
theorem achieves_cursor_asked {n : Node} (st : NodeStatus) (hid : st.cursorEventId = none)
    (hdate : st.cursorEventDate = none) (hs : s.Stands now store) :
    Achieves P (cursor n st) s fun st' _ => st'.repositories = st.repositories ∧
      (∀ c, st'.files c = st.files c) ∧ st'.cursorEventId = store.cursors.get? n.id ∧
      st'.cursorEventDate = (store.cursors.get? n.id).bind fun eventId =>
        ((Call.getEvent eventId).answer now store none).map (·.createdAt) := by
  refine (achieves_ask (c := .getCursor n.id) rfl none hs).bind ?_
  rintro position s₁ ⟨hposition, h₁⟩
  cases hcursor : store.cursors.get? n.id with
  | none =>
    obtain rfl : position = none := by
      rw [hposition]
      change (store.cursors.get? n.id).map _ = none
      rw [hcursor]
      rfl
    exact .pure ⟨rfl, fun _ => rfl, hid, hdate⟩
  | some eventId =>
    obtain rfl : position = some ⟨n.id, eventId⟩ := by
      rw [hposition]
      change (store.cursors.get? n.id).map _ = _
      rw [hcursor]
      rfl
    refine (achieves_ask (c := .getEvent eventId) rfl none h₁).bind ?_
    rintro event s₂ ⟨rfl, -⟩
    exact .pure ⟨rfl, fun c => by cases c <;> rfl, rfl, rfl⟩

/-- **The status that one store gives**: it is always given, and but for health and lag it is what
the store shows at that time. -/
theorem run_compute (hh : h.Asks) (f : Features) (n : Node) (hs : s.faults = []) :
    ∃ st, ((compute h f n).run s).1 = .ok st ∧ s.store.Shows s.now f n st := by
  have hcompute : Achieves (fun _ _ => True) (compute h f n) s fun st _ =>
      s.store.Shows s.now f n st := by
    rw [compute_eq]
    refine (achieves_checkup_asked hh n ⟨rfl, rfl, hs⟩).bind fun health s₁ h₁ => ?_
    refine (achieves_delay_asked hh n h₁).bind fun lag s₂ h₂ => ?_
    refine (achieves_repositories_asked h₂).bind ?_
    rintro _ s₃ ⟨rfl, h₃⟩
    refine (achieves_files_asked .lfsObjects h₃).bind ?_
    rintro _ s₄ ⟨rfl, h₄⟩
    refine (achieves_files_asked .attachments h₄).bind ?_
    rintro _ s₅ ⟨rfl, h₅⟩
    refine (achieves_ask (c := .lastEvent) rfl none h₅).bind ?_
    rintro last s₆ ⟨-, h₆⟩
    split
    · next hsecondary =>
      refine (achieves_cursor_asked _ rfl rfl h₆).imp ?_
      rintro st _ ⟨hrepositories, hfiles, hid, hdate⟩
      refine ⟨hrepositories, fun c => (hfiles c).trans (by cases c <;> rfl), ?_, ?_⟩
      · rw [hid, if_pos hsecondary]
      · rw [hdate, if_pos hsecondary]
    · next hprimary =>
      refine .pure ⟨rfl, fun c => by cases c <;> rfl, ?_, ?_⟩
      · rw [if_neg hprimary]
      · rw [if_neg hprimary]
  obtain ⟨st, s', hrun, hshows⟩ := hcompute (throughout_of fun _ _ => trivial)
  exact ⟨st, congrArg Prod.fst hrun, hshows⟩

end StatusReport

end GeoReplication
