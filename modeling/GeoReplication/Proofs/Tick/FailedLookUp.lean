import GeoReplication.Proofs.Program.Abreast
import GeoReplication.Proofs.Program.Follows
import GeoReplication.Proofs.Tick.GivenUp
import GeoReplication.Proofs.Tick.Outcome
import GeoReplication.Proofs.Tick.Rotation
import GeoReplication.Proofs.Tick.SharedQueue

/-!
# Proofs/Tick/FailedLookUp — what a look-up that fails does to a tick

    ── look-up of c ✗ ── … ── tick ends ──▸ rotation:  c at 0,  others where they left off

A tick goes on when a look-up of candidates fails.  The category whose look-up failed has nothing
more to give in this tick, and its place in the rotation is lost: whatever it has handed out, the
next tick begins again at its lowest number.  To everything else the tick is one in which the
category had no candidates but those it had found before (`failed_look_up`).

The proof follows the look-ups of each category along the history of a run (`lookUps`); what the
answers mean for the sources is `Outlook.Comes`.
-/

namespace GeoReplication

open Program Relation

/-! ## Look-ups in a history -/

namespace Moment

/-- The category that was looked up, and what was answered. -/
def lookUp : Moment → Option (Category × Option (List Int))
  | ⟨s, .store (.findCandidates c f afterId size)⟩ =>
    some (c, (s.call (.findCandidates c f afterId size)).1.toOption)
  | _ => none

/-- What was looked up of a category, in order. -/
def lookUps (h : List Moment) (c : Category) : Answers :=
  h.filterMap fun m => (m.lookUp.filter fun a => a.1 = c).map Prod.snd

theorem lookUps_append (h h' : List Moment) (c : Category) :
    lookUps (h ++ h') c = lookUps h c ++ lookUps h' c := List.filterMap_append

end Moment

/-- The effect is no look-up of candidates. -/
def Effect.IsNoLookUp : Effect → Prop
  | .store (.findCandidates _ _ _ _) => False
  | _ => True

theorem Effect.OnlyLeases.isNoLookUp {e : Effect} (he : e.OnlyLeases) : e.IsNoLookUp := by
  cases e with
  | store c =>
    rcases he with rfl | hc
    · trivial
    · cases c <;> first | exact hc.elim | trivial
  | _ => first | exact he.elim | trivial

theorem Moment.lookUp_eq_none {m : Moment} (hm : m.effect.IsNoLookUp) : m.lookUp = none := by
  obtain ⟨s, e⟩ := m
  cases e with
  | store c => cases c <;> first | exact hm.elim | rfl
  | _ => rfl

theorem Moment.lookUps_of_none {h : List Moment} (hh : ∀ m ∈ h, m.effect.IsNoLookUp)
    (c : Category) : lookUps h c = [] :=
  List.filterMap_eq_nil_iff.mpr fun m hm => by rw [lookUp_eq_none (hh m hm)]; rfl

/-- One more answer of a category, and none of another. -/
theorem Moment.lookUps_of_lookUp {m : Moment} {c : Category} {answer : Option (List Int)}
    (hm : m.lookUp = some (c, answer)) :
    lookUps [m] c = [answer] ∧ ∀ c', c' ≠ c → lookUps [m] c' = [] := by
  refine ⟨by simp [lookUps, hm], fun c' hc' => ?_⟩
  simp [lookUps, hm, Option.filter, hc'.symm]

namespace Scheduler

open Moment

variable {α β : Type} {sched : Scheduler} {n : Node} {o : Outlook} {q : JobQueue} {s s' : Site}
  {h : List Moment} {r : Rotation} {limit : Nat}

theorem looksUp_of_isNoLookUp {e : Effect} (he : e.IsNoLookUp) : LooksUp s e := by
  cases e with
  | store c => cases c <;> first | exact he.elim | rfl
  | _ => rfl

theorem HasLease.isNoLookUp (hl : sched.HasLease) (key : String) (ttl : Nat) :
    sched.lease.Does Effect.IsNoLookUp key ttl :=
  hl.does (fun c hc => by cases c <;> first | exact hc.elim | trivial) fun _ => trivial

theorem Sees.aside (h : Sees sched n o q s) (hs : ReflTransGen (Aside sched n) s s') :
    Sees sched n o q s' := by
  induction hs with
  | refl => exact h
  | tail _ ho ih => exact (conduct_aside sched n 0).others _ _ ih ho

/-! ## Parts of a step -/

/-- A part of a tick while others leave alone what it sees; `post` says what it leaves. -/
abbrev Leaves (sched : Scheduler) (n : Node) (t : Program α)
    (post : α → List Moment → Site → Prop) (h : List Moment) (s : Site) : Prop :=
  t.Guards (Aside sched n) (fun _ _ => True) (fun r h s => ∀ a, r = .ok a → post a h s) h s

/-- A part without look-ups. -/
theorem leaves_of_secures {t : Program α} {post : α → Site → Prop} {p : α → Prop}
    (ht : t.Secures (Aside sched n) LooksUp (Returns True post) s)
    (he : t.Every Effect.IsNoLookUp p) :
    Leaves sched n t (fun a h' s' => post a s' ∧ p a ∧ lookUps h' = lookUps h) h s := by
  refine (ht.guards he fun _ _ => looksUp_of_isNoLookUp).imp ?_
  intro r h' s' hr a ha
  obtain ⟨hpost, hp, ms, rfl, hms⟩ := hr a ha
  refine ⟨hpost, hp, funext fun c => ?_⟩
  rw [lookUps_append, lookUps_of_none hms, List.append_nil]

/-- A part that changes nothing but leases. -/
theorem leaves_of_onlyLeases {t : Program α} (ht : t.Every Effect.OnlyLeases fun _ => True)
    (hs : Sees sched n o q s) :
    Leaves sched n t (fun _ h' s' => Sees sched n o q s' ∧ lookUps h' = lookUps h) h s := by
  have hown : ∀ h' s e, Effect.OnlyLeases e → Sees sched n o q s ∧ lookUps h' = lookUps h →
      Sees sched n o q (s.perform e).2 ∧ lookUps (h' ++ [⟨s, e⟩]) = lookUps h := by
    rintro h' s e he ⟨hs, hsame⟩
    refine ⟨hs.own he, funext fun c => ?_⟩
    have hnone : lookUps [⟨s, e⟩] c = [] := lookUps_of_none (by simpa using he.isNoLookUp) c
    rw [lookUps_append, hsame, hnone, List.append_nil]
  refine (ht.guards (P := fun h' s' => Sees sched n o q s' ∧ lookUps h' = lookUps h)
    (fun _ s s' hP ho => ⟨(conduct_aside sched n 0).others s s' hP.1 ho, hP.2⟩) hown
    (fun _ _ _ => trivial) ⟨hs, rfl⟩).imp ?_
  exact fun _ _ _ hr _ _ => hr.1

/-- The question for the next page of a source, whatever it is answered. -/
theorem leaves_ask (hpage : sched.batchSize = o.pageSize) (hs : Sees sched n o q s)
    (src : Source) :
    Leaves sched n (Program.call (.findCandidates src.category (sched.filter n) src.afterId
        sched.batchSize)).attempt (fun page h' s' =>
      (∃ m, h' = h ++ [m] ∧ m.lookUp = some (src.category, page.toOption)) ∧
      (∀ ids, page = .ok ids → ids = o.page src) ∧ Sees sched n o q s') h s := by
  let c : Call := .findCandidates src.category (sched.filter n) src.afterId sched.batchSize
  refine .attempt (.call fun s₁ hs₁ => ⟨trivial, ?_⟩)
  have hsees := hs.aside hs₁
  have hsees' : Sees sched n o q (s₁.call c).2 := hsees.call ⟨s₁.store.leases, rfl⟩
  have hlookUp : Moment.lookUp ⟨s₁, .store c⟩ =
      some (src.category, (s₁.call c).1.toOption) := rfl
  cases hreply : (s₁.call c).1 with
  | ok ids =>
    rintro _ ⟨⟩
    rw [hreply] at hlookUp
    refine ⟨⟨_, rfl, hlookUp⟩, ?_, hsees'⟩
    rintro _ ⟨⟩
    have hread : Except.ok (s₁.store.candidates (sched.filter n) src.category src.afterId
        sched.batchSize) = (.ok ids : Except Failure (List Int)) :=
      congrArg Prod.fst (Site.run_of_call_ok hreply)
    rw [← Except.ok.inj hread, Store.candidates, hsees.candidates, hpage]
    rfl
  | error f =>
    cases f with
    | error e =>
      rintro _ ⟨⟩
      rw [hreply] at hlookUp
      refine ⟨⟨_, rfl, hlookUp⟩, ?_, hsees'⟩
      rintro _ ⟨⟩
    | overflow e => rintro _ ⟨⟩

/-- The look-up of one source, whatever it is answered. -/
theorem leaves_refill (hpage : sched.batchSize = o.pageSize) (hs : Sees sched n o q s)
    (src : Source) :
    Leaves sched n (sched.refill (sched.filter n) src) (fun src' h' s' =>
      (∃ new : Category → Answers, lookUps h' = (fun c => lookUps h c ++ new c) ∧
        o.Looks src (new src.category) src' ∧ ∀ c, c ≠ src.category → new c = []) ∧
      Sees sched n o q s') h s := by
  rw [refill]
  by_cases hdue : src.isDue = true
  · rw [if_pos hdue]
    refine Guards.bind_ok (leaves_ask hpage hs src) ?_
    rintro page h' s' ⟨⟨m, rfl, hm⟩, hpage', hsees⟩
    have hlookUps : lookUps (h ++ [m]) = fun c => lookUps h c ++ lookUps [m] c :=
      funext fun c => lookUps_append h [m] c
    obtain ⟨hsame, hothers⟩ := lookUps_of_lookUp hm
    cases page with
    | ok ids =>
      rintro _ ⟨⟩
      obtain rfl := hpage' ids rfl
      refine ⟨⟨_, hlookUps, ?_, hothers⟩, hsees⟩
      rw [hsame, hpage, ← Outlook.refill_of_due hdue]
      exact .page hdue
    | error e =>
      rintro _ ⟨⟩
      refine ⟨⟨_, hlookUps, ?_, hothers⟩, hsees⟩
      rw [hsame]
      exact .failed hdue
  · rw [if_neg hdue]
    rintro _ ⟨⟩
    refine ⟨⟨fun _ => [], ?_, .notDue hdue, fun _ _ => rfl⟩, hs⟩
    simp

/-- The look-ups of all sources, of different categories. -/
theorem leaves_refillAll (hpage : sched.batchSize = o.pageSize) :
    ∀ (p : Progress) {h : List Moment} {s : Site}, (p.sources.map (·.category)).Nodup →
      Sees sched n o q s →
      Leaves sched n (sched.refillAll (sched.filter n) p.sources) (fun ss h' s' =>
        (∃ new : Category → Answers, lookUps h' = (fun c => lookUps h c ++ new c) ∧
          o.LooksAll new p ss) ∧ Sees sched n o q s') h s
  | ⟨[], _, _⟩, h, s, _, hs => by
      rintro _ ⟨⟩
      exact ⟨⟨fun _ => [], by simp, .nil, fun _ _ => rfl⟩, hs⟩
  | ⟨src :: ss, seen, scheduled⟩, h, s, hn, hs => by
      dsimp only at hn ⊢
      rw [List.map_cons, List.nodup_cons] at hn
      refine Guards.bind_ok (leaves_refill hpage hs src) ?_
      rintro src' h' s' ⟨⟨new, hnew, hlooks, hothers⟩, hs'⟩
      refine Guards.bind_ok (leaves_refillAll hpage ⟨ss, seen, scheduled⟩ hn.2 hs') ?_
      rintro ss' h'' s'' ⟨⟨new', hnew', hlooks', hothers'⟩, hs''⟩
      rintro _ ⟨⟩
      refine ⟨⟨fun c => new c ++ new' c, ?_, ?_, fun c hc => ?_⟩, hs''⟩
      · rw [hnew', hnew]
        simp
      · refine .cons ?_ ?_
        · rw [hothers' _ hn.1, List.append_nil]
          exact hlooks
        · have hmem : ∀ t ∈ ss, t.category ≠ src.category := fun t ht hsame =>
            hn.1 (hsame ▸ List.mem_map_of_mem ht)
          refine ((List.forall₂_and_left _ _).mpr ⟨hmem, hlooks'⟩).imp fun t t' ht => ?_
          rw [hothers _ ht.1, List.nil_append]
          exact ht.2
      · rw [List.map_cons, List.mem_cons, not_or] at hc
        rw [hothers c hc.1, hothers' c hc.2, List.append_nil]

/-! ## Steps -/

/-- **Any number of steps**, however their look-ups are answered. -/
theorem leaves_steps (hl : sched.HasLease) (hpage : sched.batchSize = o.pageSize) (deadline : Nat) :
    ∀ (count : Nat) (p : Progress) {q : JobQueue} {h : List Moment} {s : Site},
      o.OnCourse (lookUps h) p → (p.sources.map (·.category)).Nodup →
      (∀ id, q.isScheduled id = o.busy p id) → Sees sched n o q s →
      Leaves sched n (sched.steps n deadline count p) (fun r h' s' =>
        o.Comes (n.reposMaxCapacity.toNat - q.inFlight) (lookUps h) (lookUps h') p r ∧
          ∃ new q', r.2.scheduled = p.scheduled ++ new ∧ q.Takes n.id new q' ∧
            Sees sched n o q' s') h s := by
  have hc := conduct_aside sched n deadline
  intro count
  induction count with
  | zero =>
    intro p q h s hcourse _ _ hs
    rintro _ ⟨⟩
    exact ⟨.cutShort hcourse _ nofun, [], q, (List.append_nil _).symm, .nothing q n.id, hs⟩
  | succ count ih =>
    intro p q h s hcourse hn hbusy hs
    -- nothing more is done when time or lease runs out
    have hcut : ∀ {h' s'}, lookUps h' = lookUps h → Sees sched n o q s' →
        o.Comes (n.reposMaxCapacity.toNat - q.inFlight) (lookUps h) (lookUps h') p (.cutShort, p) ∧
          ∃ new q', p.scheduled = p.scheduled ++ new ∧ q.Takes n.id new q' ∧
            Sees sched n o q' s' := fun hsame hs' =>
      ⟨by rw [hsame]; exact .cutShort hcourse _ nofun, [], q, (List.append_nil _).symm,
        .nothing q n.id, hs'⟩
    refine Guards.bind_ok (leaves_of_onlyLeases (.uptime trivial) hs) ?_
    rintro now h₁ s₁ ⟨hs₁, hsame₁⟩
    split
    · rintro _ ⟨⟩
      exact hcut hsame₁ hs₁
    refine Guards.bind_ok (leaves_of_secures (secures_keepsLease hl hc hs₁)
      (every_keepsLease (hl.isNoLookUp _ _))) ?_
    rintro held h₂ s₂ ⟨⟨-, hs₂⟩, -, hsame₂⟩
    split
    · rintro _ ⟨⟩
      exact hcut (hsame₂.trans hsame₁) hs₂
    refine Guards.bind_ok (leaves_of_secures (secures_room hc hs₂) (every_room trivial)) ?_
    rintro slots h₃ s₃ ⟨⟨rfl, hs₃⟩, -, hsame₃⟩
    have hsame := hsame₃.trans (hsame₂.trans hsame₁)
    split
    · next hslots =>
      rintro _ ⟨⟩
      rw [hslots, hsame]
      exact ⟨.full hcourse, [], q, (List.append_nil _).symm, .nothing q n.id, hs₃⟩
    next hslots =>
    refine Guards.bind_ok (leaves_refillAll hpage p hn hs₃) ?_
    rintro ss h₄ s₄ ⟨⟨new, hnew, hlooks⟩, hs₄⟩
    rw [hsame] at hnew
    split
    · next hdone =>
      rintro _ ⟨⟩
      rw [hnew]
      exact ⟨.done hslots hcourse hlooks hdone, [], q, (List.append_nil _).symm,
        .nothing q n.id, hs₄⟩
    next hdone =>
    refine Guards.bind_ok (leaves_of_secures (secures_fill hbusy hc hs₄ _ ss)
      (every_fill (fun _ => trivial) trivial (fun _ => trivial) _ _)) ?_
    rintro _ h₅ s₅ ⟨⟨rfl, q', htakes, hs₅⟩, hcategories, hsame₅⟩
    rw [hnew] at hsame₅
    have hcourse' := hcourse.onward hlooks (n.reposMaxCapacity.toNat - q.inFlight)
    rw [← hsame₅] at hcourse'
    have hn' := hn
    rw [← hlooks.categories, ← hcategories] at hn'
    refine (ih _ hcourse' hn' (busy_after hbusy htakes rfl) hs₅).imp ?_
    intro r h₆ s₆ hr a ha
    obtain ⟨hcomes, taken, q'', htaken, htakes', hs₆⟩ := hr a ha
    rw [htakes.inFlight, Nat.sub_add_eq, hsame₅] at hcomes
    refine ⟨.step hslots hcourse hlooks hdone hcomes, _, q'', ?_, htakes.trans htakes', hs₆⟩
    rw [htaken, Outlook.onward, List.append_assoc]

/-! ## A tick -/

/-- What a tick has done whose look-ups were given these answers: none, or it was steps that came to
an end with them, and the queue has taken in what they dispatched. -/
def Answered (sched : Scheduler) (n : Node) (r : Rotation) (o : Outlook) (q : JobQueue)
    (answers : Category → Answers) (result : TickReport × Rotation) (q' : JobQueue) : Prop :=
  (answers = fun _ => []) ∨ ∃ ending p,
    o.Comes (n.reposMaxCapacity.toNat - q.inFlight) (fun _ => []) answers (sched.outset n r)
      (ending, p) ∧
      result = (⟨none, p.scheduled, ending ≠ .finished⟩, remember n p.sources r) ∧
      q.Takes n.id p.scheduled q'

theorem onCourse_outset : o.OnCourse (fun _ => []) (sched.outset n r) where
  tracks src hsrc := by
    obtain ⟨c, -, rfl⟩ := List.mem_map.mp hsrc
    exact .begin _ _ _ _
  seen _ hid := absurd hid List.not_mem_nil

theorem categories_outset (sched : Scheduler) (n : Node) (r : Rotation) :
    (sched.outset n r).sources.map (·.category) = categories sched.config.features := by
  simp [outset, Outlook.outset, Source.begin, Function.comp_def]

theorem leaves_schedule (hl : sched.HasLease) (hpage : sched.batchSize = o.pageSize)
    (hbusy : q.isScheduled = o.inFlight) (hh : lookUps h = fun _ => []) (hs : Sees sched n o q s) :
    Leaves sched n (sched.schedule n r limit) (fun result h' s' =>
      ∃ q', Answered sched n r o q (lookUps h') result q' ∧ Sees sched n o q' s') h s := by
  refine Guards.bind_ok (leaves_of_onlyLeases (.uptime trivial) hs) ?_
  rintro now h₁ s₁ ⟨hs₁, hsame⟩
  rw [hh] at hsame
  split
  · exact nofun
  split
  · rintro _ ⟨⟩
    exact ⟨q, .inl hsame, hs₁⟩
  have hbusy' : ∀ id, q.isScheduled id = o.busy (sched.outset n r) id := fun id => by
    rw [hbusy]
    exact (Bool.or_false _).symm
  have hn : ((sched.outset n r).sources.map (·.category)).Nodup := by
    rw [categories_outset]
    exact Shift.nodup_categories _
  refine Guards.bind_ok (leaves_steps hl hpage _ limit (sched.outset n r)
    (hsame ▸ onCourse_outset) hn hbusy' hs₁) ?_
  rintro ⟨ending, p⟩ h₂ s₂ ⟨hcomes, new, q', hnew, htakes, hs₂⟩
  rintro _ ⟨⟩
  rw [hsame] at hcomes
  obtain rfl : p.scheduled = new := hnew
  exact ⟨q', .inr ⟨ending, p, hcomes, rfl, htakes⟩, hs₂⟩

theorem leaves_tick (hl : sched.HasLease) (hpage : sched.batchSize = o.pageSize)
    (hbusy : q.isScheduled = o.inFlight) (hs : Sees sched n o q s) :
    Leaves sched n (sched.tick n r limit) (fun result h' s' =>
      ∃ q', Answered sched n r o q (lookUps h') result q' ∧ Sees sched n o q' s') [] s := by
  have hstart : lookUps [] = fun _ => [] := rfl
  refine Guards.bind_ok (leaves_of_onlyLeases (every_obstacle (.inl rfl)) hs) ?_
  rintro (_ | reason) h₁ s₁ ⟨hs₁, hsame₁⟩
  · refine Guards.bind_ok (leaves_of_onlyLeases (hl.onlyLeases _ _).obtain hs₁) ?_
    rintro held h₂ s₂ ⟨hs₂, hsame₂⟩
    split
    · rintro _ ⟨⟩
      exact ⟨q, .inl (hsame₂.trans hsame₁), hs₂⟩
    refine Guards.bind_ok (leaves_schedule hl hpage hbusy (hsame₂.trans hsame₁) hs₂) ?_
    rintro result h₃ s₃ ⟨q', hanswered, hs₃⟩
    refine Guards.bind_ok (leaves_of_onlyLeases (every_cancel (hl.onlyLeases _ 0)) hs₃) ?_
    rintro _ h₄ s₄ ⟨hs₄, hsame₄⟩
    rintro _ ⟨⟩
    exact ⟨q', hsame₄ ▸ hanswered, hs₄⟩
  · rintro _ ⟨⟩
    exact ⟨q, .inl hsame₁, hs₁⟩

theorem answered_of_tick {result : TickReport × Rotation} (hl : sched.HasLease)
    (hq : s.queues.get? sched.queue = some q)
    (hr : (sched.tick n r limit).Reaches (Aside sched n) s h (.done result) s') :
    ∃ q', Answered sched n r (sched.outlook n s.store q) q (lookUps h) result q' ∧
      s'.queues.get? sched.queue = some q' := by
  have hsees : Sees sched n (sched.outlook n s.store q) q s := ⟨fun _ => rfl, hq⟩
  obtain ⟨-, s₁, hs, hend⟩ := hr.guards (leaves_tick hl rfl rfl hsees) (fun _ _ _ _ _ => trivial)
    trivial
  obtain ⟨q', hanswered, hs₁⟩ := hend result rfl
  exact ⟨q', hanswered, (hs₁.aside hs).queue⟩

variable {c : Category}

/-- **A failed look-up loses the place** of its category, and nothing else.  When a look-up of `c`
has failed in a tick, all that was found of `c` had been handed out, and the last of it was the last
candidate that the source of `c` handed out; but the next tick begins at the lowest number, and so
where this one left off only if it had begun there and found nothing.  What the tick dispatched, and
where it left off in the categories without a failed look-up, is what a tick comes to that knows no
candidates of a category with a failed look-up but those found. -/
theorem failed_look_up {result : TickReport × Rotation} (hl : sched.HasLease)
    (hq : s.queues.get? sched.queue = some q)
    (hr : (sched.tick n r limit).Reaches (Aside sched n) s h (.done result) s')
    (hfailed : none ∈ lookUps h c) :
    ((∃ ss, result.2 = remember n ss r ∧ ∃ src ∈ ss, src.category = c ∧
        src.lastTaken = (lookUps h c).found.getLast?) ∧
      (∀ id ∈ (lookUps h c).found, q.isScheduled id = true ∨ id ∈ result.1.scheduled) ∧
      result.2.get? (n.id, c) = some 0 ∧
      (result.2.get? (n.id, c) =
          some ((lookUps h c).found.getLast?.getD ((r.get? (n.id, c)).getD 0)) ↔
        (lookUps h c).found = [] ∧ (r.get? (n.id, c)).getD 0 = 0)) ∧
    ∃ count q' ending p,
      ((sched.outlook n s.store q).asFound (lookUps h)).sweep count
        (n.reposMaxCapacity.toNat - q.inFlight) (sched.outset n r) = (ending, p) ∧
      result.1 = ⟨none, p.scheduled, ending ≠ .finished⟩ ∧
      q.Takes n.id p.scheduled q' ∧ s'.queues.get? sched.queue = some q' ∧
      ∀ c', none ∉ lookUps h c' →
        result.2.get? (n.id, c') = (remember n p.sources r).get? (n.id, c') := by
  obtain ⟨q', hanswered, hq'⟩ := answered_of_tick hl hq hr
  rcases hanswered with hnone | ⟨ending, p, hcomes, rfl, htakes⟩
  · rw [hnone] at hfailed
    exact absurd hfailed List.not_mem_nil
  have hcategories := hcomes.categories.trans (categories_outset sched n r)
  have hn : (p.sources.map (·.category)).Nodup := by
    rw [hcategories]
    exact Shift.nodup_categories _
  obtain ⟨src, hsrc, rfl⟩ : ∃ src ∈ p.sources, src.category = c := by
    refine List.mem_map.mp (by_contra fun hnot => ?_)
    rw [hcomes.categories] at hnot
    rw [hcomes.elsewhere c hnot] at hfailed
    exact absurd hfailed List.not_mem_nil
  have htracks := hcomes.course.tracks src hsrc
  have hplace := get?_remember (n := n) p.sources r hn src hsrc
  have hlost : src.resumeAfter = 0 := if_pos (htracks.givenUp hfailed)
  rw [hlost] at hplace
  refine ⟨⟨⟨p.sources, rfl, src, hsrc, rfl, htracks.lastTaken_of_failed hfailed⟩, fun id hid => ?_,
    hplace, ?_⟩, ?_⟩
  · exact Outlook.busy_eq_true.mp (htracks.busy_of_failed hfailed id hid)
  · rw [hplace, Option.some_inj]
    cases hlast : (lookUps h src.category).found.getLast? with
    | none => simp [List.getLast?_eq_none_iff.mp hlast, eq_comm]
    | some id =>
      have hmem := List.mem_of_getLast? hlast
      have hpos := (sched.outlook n s.store q).positive _ id (htracks.candidates id hmem)
      refine iff_of_false (Int.ne_of_lt hpos) fun hempty => ?_
      rw [hempty.1] at hmem
      exact List.not_mem_nil hmem
  · obtain ⟨count, hcasts, hfinished⟩ := hcomes.shadow (.refl _ _ _) fun _ t ht => by
      obtain ⟨c, -, rfl⟩ := List.mem_map.mp ht
      rfl
    refine ⟨count, q', _, _, rfl, ?_, hcasts.scheduled ▸ htakes, hq', fun c' hnone => ?_⟩
    · rw [hcasts.scheduled]
      exact congrArg _ (decide_eq_decide.mpr (not_congr hfinished))
    · have hsame := hcasts.categories
      by_cases hc' : c' ∈ p.sources.map (·.category)
      · obtain ⟨src', hsrc', rfl⟩ := List.mem_map.mp hc'
        obtain ⟨t, ht, hshadow⟩ := exists_right_of_forall₂ hcasts.sources hsrc'
        obtain rfl := hshadow.eq_of_not_failed hnone
        rw [get?_remember _ _ hn _ hsrc', get?_remember _ _ (hsame ▸ hn) _ ht]
      · rw [get?_remember_of_notMem _ _ hc', get?_remember_of_notMem _ _ (hsame ▸ hc')]

/-! ### Places that are lost -/

/-- Three projects were never copied, and the second look-up of such projects fails. -/
def troubledSite : Site :=
  { trioSite with faults := [⟨.findUnsynced, 1, some 1, .timeout "busy"⟩] }

/-- A tick there that looks candidates up one by one. -/
def troubledTick : List Moment × Program (TickReport × Rotation) × Site :=
  (pagingScheduler.tick trioNode .empty 13).ahead 60 troubledSite

/-- The first project was found and dispatched, but the next tick begins with it again. -/
theorem failed_look_up_troubled : ∃ result, troubledTick.2.1 = .done result ∧
    lookUps troubledTick.1 .neverSynced = [some [1], none] ∧
    result.1.scheduled = [1] ∧ result.2.get? (2, .neverSynced) = some 0 ∧
    (result.2.get? (2, .neverSynced) = some 1 ↔ ([1] : List Int) = [] ∧ (0 : Int) = 0) := by
  have hanswers : lookUps troubledTick.1 .neverSynced = [some [1], none] := by decide
  obtain ⟨result, hvalue, hscheduled⟩ :=
    Option.map_eq_some_iff.mp (by decide : troubledTick.2.1.value?.map (·.1.scheduled) = some [1])
  have hdone := eq_done_of_value? hvalue
  have hstart : (pagingScheduler.tick trioNode .empty 13).Reaches (Aside pagingScheduler trioNode)
    troubledSite [] _ _ := .start
  have hr := hstart.ahead 60
  change (pagingScheduler.tick trioNode .empty 13).Reaches _ _ troubledTick.1 troubledTick.2.1
    troubledTick.2.2 at hr
  rw [hdone] at hr
  obtain ⟨⟨-, -, hplace, hiff⟩, -⟩ :=
    failed_look_up (c := .neverSynced) (.inr rfl) rfl hr (by rw [hanswers]; decide)
  rw [hanswers] at hiff
  exact ⟨result, hdone, hanswers, hscheduled, hplace, hiff⟩

/-- Four projects could not be copied, and the next look-up of such projects fails. -/
def troubledBacklog : Site :=
  let project : ProjectRow := ⟨1, "p", "g/p", "default", false, none, none, none, ""⟩
  let failure : RegistryRow := ⟨PartRow.fresh.fail "" "unreachable", .fresh, ""⟩
  { Site.start .epoch
      { Store.empty with
        nodes := Store.Numbered.empty.insert
          ⟨⟨"http", "primary", 80, ""⟩, true, true, 25, 10, "", ""⟩
        projects := (List.replicate 4 project).foldl Store.Numbered.insert .empty
        registries := [1, 2, 3, 4].foldl (fun rows id => rows.insert (2, id) failure) .empty }
      [("repositories", .empty)] with
    faults := [⟨.findFailed, 0, some 1, .timeout "busy"⟩] }

/-- The last tick left off behind the second. -/
def behindSecond : Rotation := Store.Table.empty.insert (2, .failed) 2

/-- A tick with room for two jobs. -/
def backlogged (r : Rotation) (s : Site) : Except Failure (TickReport × Rotation) × Site :=
  (plainScheduler.tick trioNode r 13).run s

/-- **A place is lost**: the look-up fails before anything is handed out, and the next tick begins
with the first project again, where the one from the place that was carried would go on with the
third. -/
theorem place_lost :
    (backlogged behindSecond troubledBacklog).1.map
        (fun result => (result.1, result.2.get? (2, .failed))) =
      .ok (⟨none, [], false⟩, some 0) ∧
    ((backlogged (leftOff (backlogged behindSecond troubledBacklog).1)
        (backlogged behindSecond troubledBacklog).2).1.map (·.1.scheduled),
      (backlogged behindSecond (backlogged behindSecond troubledBacklog).2).1.map
        (·.1.scheduled)) = (.ok [1, 2], .ok [3, 4]) := by
  decide

end Scheduler

end GeoReplication
