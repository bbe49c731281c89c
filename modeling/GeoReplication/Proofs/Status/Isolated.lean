import GeoReplication.Proofs.Status.Broken
import GeoReplication.Proofs.Status.Healthy

/-!
# Proofs/Status/Isolated — a broken operation costs a status its own figures only

    lastHeartbeat ──▸ lag            countProjects   ──▸ all repositories
    lastEvent     ──▸ last event     countRegistries ──▸ synced and failed repositories
    getCursor     ──▸ cursor         countFiles      ──▸ files of both classes
    getEvent      ──▸ its date       ping, findNodeByUrl, getCursor, lastEvent ──▸ health

A status is computed on a site without faults and on the same site broken down.  The two runs stay
beside each other, figure by figure, whichever operations are hit; health is the only part that
several operations are asked for together (`StatusReport.LeavesOut`).
-/

namespace GeoReplication

open Program

variable {b : Breakdown} {s : Site} {P : Site → Effect → Prop}

/-! ## Health -/

namespace Health

/-- The operations that the check of the installation asks. -/
def asked : List Call.Kind := [.ping, .findNodeByUrl, .getCursor, .lastEvent]

theorem every_failures_of {E : Effect → Prop} {nodeUrl : String} (c : Config)
    (hping : E (.store .ping)) (hfind : E (.store (.findNodeByUrl nodeUrl)))
    (hcursor : ∀ nodeId, E (.store (.getCursor nodeId))) (hlast : E (.store .lastEvent)) :
    (failures c nodeUrl).Every E fun _ => True := by
  have hlog (n : Node) : (logFailures n).Every E fun _ => True := by
    refine (Every.call (hcursor n.id)).attempt.bind fun cursor _ => ?_
    refine (Every.call hlast).attempt.bind fun last _ => ?_
    split
    · dsimp only
      split <;> trivial
    all_goals trivial
  refine (Every.call hping).attempt.bind fun ping _ => ?_
  split
  · trivial
  · refine (Every.call hfind).attempt.bind fun node _ => ?_
    split
    · trivial
    · trivial
    · exact (hlog _).bind fun _ _ => trivial

/-- What is answered was not hit. -/
theorem achieves_asking_breaking {c : Call} (hc : c.writes = []) (s : Site) (b : Breakdown) :
    Achieves P (Program.call c).attempt (s.breaking b) fun r s' =>
      s' = s.breaking b ∧ ∀ a, r = .ok a → b.hits c.kind = false := fun hwell => by
  obtain ⟨r, s', hrun, -⟩ := achieves_asking (P := P) hc hwell
  have hsite := run_breaking (t := (Program.call c).attempt)
    ((Every.call (E := Effect.IsQuestion) hc).attempt.imp fun _ _ => trivial) s b
  rw [hrun] at hsite
  refine ⟨r, s', hrun, hsite, ?_⟩
  rintro a rfl
  cases hlookup : b.lookup c.kind with
  | none => rw [Breakdown.hits, hlookup, Option.isSome_none]
  | some e =>
    rw [run_attempt, run_call, Site.call_breaking hc, hlookup] at hrun
    cases hrun

/-- **Where something is hit that the check asks, it finds something.** -/
theorem achieves_failures_breaking (c : Config) (nodeUrl : String) (s : Site) (b : Breakdown) :
    Achieves P (failures c nodeUrl) (s.breaking b) fun found _ =>
      found = [] → ∀ kind ∈ asked, b.hits kind = false := by
  have hlog (n : Node) : Achieves P (logFailures n) (s.breaking b) fun found _ =>
      found = [] → b.hits .getCursor = false ∧ b.hits .lastEvent = false := by
    refine (achieves_asking_breaking (c := .getCursor n.id) rfl s b).bind ?_
    rintro cursor _ ⟨rfl, hcursor⟩
    refine (achieves_asking_breaking (c := .lastEvent) rfl s b).bind ?_
    rintro last _ ⟨rfl, hlast⟩
    split
    · dsimp only
      split
      · exact .pure fun h => absurd h (List.cons_ne_nil _ _)
      · exact .pure fun _ => ⟨hcursor _ rfl, hlast _ rfl⟩
    · exact .pure fun h => absurd h (List.cons_ne_nil _ _)
    · exact .pure fun h => absurd h (List.cons_ne_nil _ _)
    · exact .pure fun _ => ⟨hcursor _ rfl, hlast _ rfl⟩
  refine (achieves_asking_breaking (c := .ping) rfl s b).bind ?_
  rintro ping _ ⟨rfl, hping⟩
  split
  · exact .pure fun h => absurd h (List.cons_ne_nil _ _)
  · refine (achieves_asking_breaking (c := .findNodeByUrl nodeUrl) rfl s b).bind ?_
    rintro node _ ⟨rfl, hnode⟩
    split
    · exact .pure fun h => absurd h (List.cons_ne_nil _ _)
    · exact .pure fun h => absurd h (List.cons_ne_nil _ _)
    · next n =>
      refine (hlog n).bind fun found _ hfound => .pure fun hnone => ?_
      obtain ⟨hcursor, hlast⟩ := hfound (List.append_eq_nil_iff.mp hnone).2
      have hping : b.hits .ping = false := hping _ rfl
      have hnode : b.hits .findNodeByUrl = false := hnode _ rfl
      simp [asked, hping, hnode, hcursor, hlast]

end Health

namespace StatusReport

variable {f : Features} {n : Node}

/-- Health on both sites: the same if nothing is hit that the check asks, else bad. -/
def HealthLeft (b : Breakdown) (health health' : Bool × String) : Prop :=
  ((∀ kind ∈ Health.asked, b.hits kind = false) → health' = health) ∧
    ∀ kind ∈ Health.asked, b.hits kind = true → health'.1 = false

theorem every_health {E : Effect → Prop} {c : Config} {nodeUrl : String}
    (h : (Health.failures c nodeUrl).Every E fun _ => True) :
    (health (.localTo c nodeUrl)).Every E fun _ => True := by
  have hprocess : (Health.process c nodeUrl ["geo"]).Every E fun _ => True := by
    rw [Health.process, if_pos rfl]
    exact h.bind fun _ _ => trivial
  have hjoined : ((HealthCheck.localTo c nodeUrl).process ["geo"]).Every E fun _ => True :=
    hprocess.bind fun _ _ => trivial
  refine hjoined.attempt.bind fun r _ => ?_
  cases r <;> trivial

/-- A site broken down is as healthy as what the check finds there, and stays as it is. -/
theorem exists_run_health (c : Config) (nodeUrl : String) (s : Site) (b : Breakdown) :
    ∃ health₀ : Bool × String,
      (health (.localTo c nodeUrl)).run (s.breaking b) = (.ok health₀, s.breaking b) ∧
      (health₀.1 = true → ∀ kind ∈ Health.asked, b.hits kind = false) := by
  have hall (s : Site) : (Health.failures c nodeUrl).Throughout (fun _ _ => True) s :=
    throughout_of fun _ _ => trivial
  obtain ⟨found, s₁, hrun, hspeaks⟩ := Health.achieves_failures c nodeUrl (hall (s.breaking b))
  obtain ⟨_, _, hrun', hnone⟩ := Health.achieves_failures_breaking c nodeUrl s b (hall _)
  obtain ⟨hfound, -⟩ := Prod.mk.inj (hrun'.symm.trans hrun)
  obtain rfl := Except.ok.inj hfound
  have hsite := run_breaking (every_health (Health.every_failures c nodeUrl)) s b
  have hhealth := run_health hrun
  rw [hhealth] at hsite
  obtain rfl := hsite
  refine ⟨_, hhealth, fun hhealthy => hnone ?_⟩
  exact (Text.line_eq_nil_iff hspeaks).mp (List.isEmpty_iff.mp hhealthy)

theorem leavesOut_health (c : Config) (nodeUrl : String) :
    Alike (Site.Under b) (HealthLeft b) (health (.localTo c nodeUrl))
      (health (.localTo c nodeUrl)) := by
  by_cases hspared : ∀ kind ∈ Health.asked, b.hits kind = false
  · have hsame : (health (.localTo c nodeUrl)).Every (Effect.SameOn (Site.Under b)) fun _ => True :=
      every_health (Health.every_failures_of c (sameOn_call rfl (hspared .ping (by decide)))
        (sameOn_call rfl (hspared .findNodeByUrl (by decide)))
        (fun _ => sameOn_call rfl (hspared .getCursor (by decide)))
        (sameOn_call rfl (hspared .lastEvent (by decide))))
    refine (Alike.of_every hsame).imp ?_
    rintro health _ rfl
    refine ⟨fun _ => rfl, fun kind hkind hhit => ?_⟩
    rw [hspared kind hkind] at hhit
    cases hhit
  · rintro _ _ ⟨s, rfl, rfl⟩
    obtain ⟨health₀, hrun, -⟩ := exists_run_health c nodeUrl s []
    obtain ⟨health', hrun', hhealthy⟩ := exists_run_health c nodeUrl s b
    rw [hrun, hrun']
    refine ⟨⟨fun h => absurd h hspared, fun _ _ _ => ?_⟩, s, rfl, rfl⟩
    exact Bool.eq_false_iff.mpr fun h => hspared (hhealthy h)

/-! ## Figures -/

theorem leavesOut_lag :
    Alike (Site.Under b) (fun a a' => a' = if b.hits .lastHeartbeat then none else a)
      (orDefault none Health.lag) (orDefault none Health.lag) := by
  refine leavesOut_orDefault Health.looks_lag Health.every_lag (fun hb => ?_) (fun hb s => ?_) none
  · refine (Every.call (sameOn_call (c := .lastHeartbeat) rfl hb)).bind fun beat _ => ?_
    cases beat with
    | none => trivial
    | some beat => exact ⟨sameOn_clock, fun _ => trivial⟩
  · obtain ⟨e, he⟩ := Site.exists_call_breaking (c := .lastHeartbeat) rfl hb s
    exact ⟨e, by rw [Health.lag, run_bind, run_call, he]⟩

/-- Counts with the number of all left out, or the numbers of the synced and failed ones, and the
share of what is reported then. -/
def without (all parts : Bool) (counts : CopyCounts) : CopyCounts :=
  .of (if all then 0 else counts.total) (if parts then 0 else counts.synced)
    (if parts then 0 else counts.failed)

theorem leavesOut_repositories (scope : Scope) :
    Alike (Site.Under b)
      (fun r r' => r' = without (b.hits .countProjects) (b.hits .countRegistries) r)
      (repositories scope) (repositories scope) := by
  refine (leavesOut_ask (c := .countProjects scope) rfl 0).bind ?_
  rintro total _ rfl
  refine (leavesOut_ask (c := .countRegistries scope .repository .synced) rfl 0).bind ?_
  rintro synced _ rfl
  refine (leavesOut_ask (c := .countRegistries scope .repository .syncFailed) rfl 0).bind ?_
  rintro failed _ rfl
  exact .pure rfl

theorem leavesOut_files (scope : Scope) (c : FileClass) :
    Alike (Site.Under b) (fun r r' => r' = without (b.hits .countFiles) (b.hits .countFiles) r)
      (files scope c) (files scope c) := by
  refine (leavesOut_ask (c := .countFiles scope c) rfl ⟨0, 0, 0⟩).bind ?_
  rintro counts _ rfl
  refine .pure ?_
  cases h : b.hits .countFiles <;> simp [without, CopyCounts.of, Call.kind, h]

/-- **What a breakdown leaves out of a status**: the figures that an operation which is hit is
behind, and none but these.  Counts are then zero, and other figures unknown. -/
structure LeavesOut (b : Breakdown) (n : Node) (st st' : NodeStatus) : Prop where
  repositories : st'.repositories =
    without (b.hits .countProjects) (b.hits .countRegistries) st.repositories
  lfsObjects : st'.lfsObjects = without (b.hits .countFiles) (b.hits .countFiles) st.lfsObjects
  attachments : st'.attachments = without (b.hits .countFiles) (b.hits .countFiles) st.attachments
  lag : st'.lag = if b.hits .lastHeartbeat then none else st.lag
  lastEventId : st'.lastEventId = if b.hits .lastEvent then none else st.lastEventId
  lastEventDate : st'.lastEventDate = if b.hits .lastEvent then none else st.lastEventDate
  cursorEventId : st'.cursorEventId = if b.hits .getCursor then none else st.cursorEventId
  cursorEventDate : st'.cursorEventDate =
    if b.hits .getCursor || b.hits .getEvent then none else st.cursorEventDate
  health : (n.isSecondary = true → ∀ kind ∈ Health.asked, b.hits kind = false) →
    st'.healthy = st.healthy ∧ st'.health = st.health
  unhealthy : n.isSecondary = true → ∀ kind ∈ Health.asked, b.hits kind = true →
    st'.healthy = false

/-- The site without faults may be asked one question more. -/
theorem leavesOut_ask_left {α β γ : Type} {R : α → β → Prop} {t : Program γ} (ht : t.Looks)
    (hasks : t.Every Effect.IsQuestion fun _ => True) {d : γ} {next : γ → Program α}
    {t' : Program β} (hnext : ∀ a, Alike (Site.Under b) R (next a) t') :
    Alike (Site.Under b) R (orDefault d t >>= next) t' := by
  rintro _ _ ⟨s, rfl, rfl⟩
  obtain ⟨a, hrun⟩ := exists_run_orDefault ht hasks d s []
  rw [run_bind_ok hrun]
  exact hnext a _ _ ⟨s, rfl, rfl⟩

theorem leavesOut_cursor {st st' : NodeStatus} (h : LeavesOut b n st st') :
    Alike (Site.Under b) (LeavesOut b n) (cursor n st) (cursor n st') := by
  refine (leavesOut_ask (c := .getCursor n.id) rfl none).bind ?_
  rintro position _ rfl
  have hcursor : b.hits (Call.getCursor n.id).kind = b.hits .getCursor := rfl
  rw [hcursor]
  cases hhit : b.hits .getCursor with
  | true =>
    cases position with
    | none => exact .pure h
    | some position =>
      refine leavesOut_ask_left (looks_call (c := .getEvent position.eventId) rfl)
        (.call (E := Effect.IsQuestion) rfl) fun event => .pure ?_
      exact { h with
        cursorEventId := by rw [h.cursorEventId, hhit, if_pos rfl, if_pos rfl]
        cursorEventDate := by rw [h.cursorEventDate, hhit, Bool.true_or, if_pos rfl, if_pos rfl] }
  | false =>
    cases position with
    | none => exact .pure h
    | some position =>
      refine (leavesOut_ask (c := .getEvent position.eventId) rfl none).bind ?_
      rintro event _ rfl
      refine .pure { h with cursorEventId := ?_, cursorEventDate := ?_ }
      · rw [hhit]
        rfl
      · rw [hhit, Bool.false_or]
        cases hevent : b.hits .getEvent <;> simp [Call.kind, hevent]

theorem leavesOut_checkup (c : Config) (nodeUrl : String) :
    Alike (Site.Under b)
      (fun health health' =>
        ((n.isSecondary = true → ∀ kind ∈ Health.asked, b.hits kind = false) → health' = health) ∧
          (n.isSecondary = true → ∀ kind ∈ Health.asked, b.hits kind = true → health'.1 = false))
      (checkup (.localTo c nodeUrl) n) (checkup (.localTo c nodeUrl) n) := by
  rw [checkup]
  cases n.isSecondary with
  | true =>
    exact (leavesOut_health c nodeUrl).imp fun _ _ h => ⟨fun hb => h.1 (hb rfl), fun _ => h.2⟩
  | false => exact .pure ⟨fun _ => rfl, fun h => by cases h⟩

theorem leavesOut_delay (c : Config) (nodeUrl : String) :
    Alike (Site.Under b) (fun a a' => a' = if b.hits .lastHeartbeat then none else a)
      (delay (.localTo c nodeUrl) n) (delay (.localTo c nodeUrl) n) := by
  rw [delay]
  cases n.isSecondary with
  | true => exact leavesOut_lag
  | false => exact .pure (ite_self none).symm

theorem leavesOut_compute (c : Config) (nodeUrl : String) (f : Features) (n : Node) :
    Alike (Site.Under b) (LeavesOut b n) (compute (.localTo c nodeUrl) f n)
      (compute (.localTo c nodeUrl) f n) := by
  rw [compute_eq]
  refine (leavesOut_checkup c nodeUrl).bind fun health health' hhealth => ?_
  refine (leavesOut_delay c nodeUrl).bind ?_
  rintro lag _ rfl
  refine (leavesOut_repositories _).bind ?_
  rintro repositories _ rfl
  refine (leavesOut_files _ .lfsObjects).bind ?_
  rintro lfsObjects _ rfl
  refine (leavesOut_files _ .attachments).bind ?_
  rintro attachments _ rfl
  refine (leavesOut_ask (c := .lastEvent) rfl none).bind ?_
  rintro last _ rfl
  have hreport : LeavesOut b n
      ⟨health.1, health.2, lag, repositories, lfsObjects, attachments, last.map (·.id),
        last.map (·.createdAt), none, none⟩
      ⟨health'.1, health'.2, if b.hits .lastHeartbeat then none else lag, without _ _ repositories,
        without _ _ lfsObjects, without _ _ attachments,
        (if b.hits .lastEvent then none else last).map (·.id),
        (if b.hits .lastEvent then none else last).map (·.createdAt), none, none⟩ :=
    { repositories := rfl
      lfsObjects := rfl
      attachments := rfl
      lag := rfl
      lastEventId := by cases b.hits .lastEvent <;> rfl
      lastEventDate := by cases b.hits .lastEvent <;> rfl
      cursorEventId := (ite_self none).symm
      cursorEventDate := (ite_self none).symm
      health := fun hspared => by rw [hhealth.1 hspared]; exact ⟨rfl, rfl⟩
      unhealthy := hhealth.2 }
  dsimp only
  split
  · exact leavesOut_cursor hreport
  · exact .pure hreport

/-- **A broken operation costs a status its own figures only.**  Whichever operations fail each
time, the status of any node is computed, and it is the one computed without faults but for what the
failing operations leave out of it. -/
theorem compute_leaves_out (c : Config) (nodeUrl : String) (f : Features) (n : Node) (s : Site)
    (b : Breakdown) : ∃ st st',
    ((compute (.localTo c nodeUrl) f n).run (s.breaking [])).1 = .ok st ∧
    ((compute (.localTo c nodeUrl) f n).run (s.breaking b)).1 = .ok st' ∧
    LeavesOut b n st st' := by
  obtain ⟨st, hst, -⟩ :=
    run_compute (HealthCheck.asks_localTo c nodeUrl) f n (s := s.breaking []) rfl
  obtain ⟨hagree, -⟩ := leavesOut_compute (b := b) c nodeUrl f n _ _ ⟨s, rfl, rfl⟩
  rw [hst] at hagree
  rcases hrun : ((compute (.localTo c nodeUrl) f n).run (s.breaking b)).1 with failure | st'
  · rw [hrun] at hagree
    exact hagree.elim
  · rw [hrun] at hagree
    exact ⟨st, st', hst, rfl, hagree⟩

example : ((compute (.localTo .standard "http://secondary/") .all groupNode).run
    ((Site.start .epoch mixedStore []).breaking
      [(.countRegistries, .timeout "busy")])).1.toOption.map
    (fun st => (st.healthy, st.repositories.total, st.repositories.synced, st.attachments.synced)) =
      some (true, 4, 0, 1) := by decide +kernel

end StatusReport

end GeoReplication
