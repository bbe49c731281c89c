import GeoReplication.Proofs.Lease.Moments
import GeoReplication.Proofs.Tick.Effects

/-!
# Proofs/Tick/Renewals — a tick dispatches only under a lease it has just renewed

    obtain · look │ look · renew · room · candidates · push … push │ look · renew · … │ release

A tick with a lease in the store looks at the time once to know its deadline, and then once at the
beginning of every step.  In each step nothing is dispatched before the lease is renewed
(`Orderly.renewed`), and steps that come to an end by themselves end in a step that has renewed it.
Others may do anything in between, so this is about every branch of a tick
(`orderly_of_follows`).
-/

namespace GeoReplication

open Program

/-- A job is put into a queue. -/
def Effect.Dispatches : Effect → Prop
  | .queue _ (.push _) => True
  | _ => False

instance (e : Effect) : Decidable (e = .uptime) :=
  match e with
  | .uptime => .isTrue rfl
  | .store _ => .isFalse nofun
  | .clock => .isFalse nofun
  | .fetch _ _ _ => .isFalse nofun
  | .queue _ _ => .isFalse nofun
  | .dropJobs _ _ _ => .isFalse nofun
  | .lease _ => .isFalse nofun

/-- A lease in the store is asked for. -/
def Effect.Obtains : Effect → Prop
  | .store (.obtainLease _ _ _) => True
  | _ => False

namespace Moment

/-- The step that is under way after `h` has renewed the lease. -/
def RenewedIn (key holder : String) (h : List Moment) : Prop :=
  ∃ h₁ m h₂ ttl, h = h₁ ++ m :: h₂ ∧ m.Granted key holder (.renew ttl) ∧
    ∀ m' ∈ h₂, m'.effect ≠ .uptime

/-- After `h` a step begins: a tick looks at the time, and not for the first time. -/
def BeginsStep (h : List Moment) (m : Moment) : Prop :=
  m.effect = .uptime ∧ ∃ m' ∈ h, m'.effect = .uptime

/-- No step has begun. -/
def NoStep (h : List Moment) : Prop := ∀ h₁ m, h₁ ++ [m] <+: h → ¬ BeginsStep h₁ m

/-- Nothing is dispatched but in a step that has renewed the lease, and no more than one lease is
asked for. -/
structure Orderly (key holder : String) (h : List Moment) : Prop where
  renewed : ∀ h₁ m, h₁ ++ [m] <+: h → m.effect.Dispatches → RenewedIn key holder h₁
  once : ∀ h₁ m, h₁ ++ [m] <+: h → m.effect.Obtains → ∀ m' ∈ h₁, ¬ m'.effect.Obtains

variable {key holder : String} {h h' : List Moment} {m : Moment}

theorem renewedIn_snoc {ttl : Nat} (hm : m.Granted key holder (.renew ttl)) :
    RenewedIn key holder (h ++ [m]) :=
  ⟨h, m, [], ttl, rfl, hm, fun _ hm' => absurd hm' List.not_mem_nil⟩

theorem RenewedIn.snoc (hr : RenewedIn key holder h) (hm : m.effect ≠ .uptime) :
    RenewedIn key holder (h ++ [m]) := by
  obtain ⟨h₁, m₁, h₂, ttl, rfl, hgranted, hquiet⟩ := hr
  refine ⟨h₁, m₁, h₂ ++ [m], ttl, by simp, hgranted, fun m' hm' => ?_⟩
  rcases List.mem_append.mp hm' with hm' | hm'
  · exact hquiet m' hm'
  · rwa [List.mem_singleton.mp hm']

/-- A renewal after a look at the time stands behind that look. -/
theorem RenewedIn.after_look {h₁ h₂ : List Moment} {u : Moment}
    (hr : RenewedIn key holder (h₁ ++ u :: h₂)) (hu : u.effect = .uptime) :
    ∃ m ∈ h₂, ∃ ttl, m.Granted key holder (.renew ttl) := by
  obtain ⟨x, m, y, ttl, heq, hm, hquiet⟩ := hr
  have hne : m ≠ u := by
    rintro rfl
    cases hu.symm.trans hm.1
  rcases List.append_eq_append_iff.mp heq with ⟨more, rfl, hrest⟩ | ⟨rest, rfl, hrest⟩
  · rcases List.cons_eq_append_iff.mp hrest with ⟨-, hsame⟩ | ⟨tail, rfl, rfl⟩
    · exact absurd (List.cons.inj hsame).1 hne
    · exact ⟨m, List.mem_append_right _ List.mem_cons_self, ttl, hm⟩
  · rcases List.cons_eq_append_iff.mp hrest with ⟨-, hsame⟩ | ⟨tail, rfl, rfl⟩
    · exact absurd (List.cons.inj hsame).1.symm hne
    · exact absurd hu (hquiet u (List.mem_append_right _ List.mem_cons_self))

theorem noStep_of (h₀ : ∀ m ∈ h, m.effect ≠ .uptime) : NoStep h := fun _ m hp hbegins =>
  h₀ m (hp.subset List.mem_concat_self) hbegins.1

theorem NoStep.snoc (hn : NoStep h) (hm : ¬ BeginsStep h m) : NoStep (h ++ [m]) := by
  intro h₁ m₁ hp
  rcases List.prefix_concat_iff.mp hp with hsame | hp
  · obtain ⟨rfl, hm₁⟩ := List.append_inj' hsame rfl
    rwa [List.singleton_inj.mp hm₁]
  · exact hn h₁ m₁ hp

namespace Orderly

theorem snoc (ho : Orderly key holder h) (hm : m.effect.Dispatches → RenewedIn key holder h)
    (honce : m.effect.Obtains → ∀ m' ∈ h, ¬ m'.effect.Obtains) : Orderly key holder (h ++ [m]) := by
  constructor
  · intro h₁ m₁ hp
    rcases List.prefix_concat_iff.mp hp with hsame | hp
    · obtain ⟨rfl, hm₁⟩ := List.append_inj' hsame rfl
      rwa [List.singleton_inj.mp hm₁]
    · exact ho.renewed h₁ m₁ hp
  · intro h₁ m₁ hp
    rcases List.prefix_concat_iff.mp hp with hsame | hp
    · obtain ⟨rfl, hm₁⟩ := List.append_inj' hsame rfl
      rwa [List.singleton_inj.mp hm₁]
    · exact ho.once h₁ m₁ hp

theorem begins (ho : Orderly key holder h) (hb : h' <+: h) : Orderly key holder h' where
  renewed h₁ m hp := ho.renewed h₁ m (hp.trans hb)
  once h₁ m hp := ho.once h₁ m (hp.trans hb)

/-- No second lease is asked for. -/
theorem not_again (ho : Orderly key holder (h ++ h')) (hm : m ∈ h) (hobtains : m.effect.Obtains) :
    ∀ m' ∈ h', ¬ m'.effect.Obtains := fun m' hm' hagain => by
  obtain ⟨ms, rest, rfl⟩ := List.append_of_mem hm'
  exact ho.once (h ++ ms) m' ⟨rest, by simp⟩ hagain m (List.mem_append_left _ hm) hobtains

/-- If no renewal is granted after a look at the time, nothing is dispatched after it. -/
theorem stops {u : Moment} (ho : Orderly key holder (h ++ u :: h')) (hu : u.effect = .uptime)
    (hnone : ∀ m ∈ h', ∀ ttl, ¬ m.Granted key holder (.renew ttl)) :
    ∀ m ∈ h', ¬ m.effect.Dispatches := fun m' hm' hdispatches => by
  obtain ⟨ms, rest, rfl⟩ := List.append_of_mem hm'
  have hrenewed := ho.renewed (h ++ u :: ms) m' ⟨rest, by simp⟩ hdispatches
  obtain ⟨m, hm, ttl, hgranted⟩ := hrenewed.after_look hu
  exact hnone m (List.mem_append_left _ hm) ttl hgranted

end Orderly

end Moment

/-- The effect is one of those within a step. -/
structure Effect.IsWithin (e : Effect) : Prop where
  obtains : ¬ e.Obtains
  uptime : e ≠ .uptime

/-- The effect is one of those outside the steps. -/
structure Effect.IsAside (e : Effect) : Prop extends e.IsWithin where
  dispatches : ¬ e.Dispatches

theorem Moment.orderly_of_aside {key holder : String} {h : List Moment}
    (h₀ : ∀ m ∈ h, m.effect.IsAside) : Orderly key holder h where
  renewed _ m hp hm :=
    absurd hm (h₀ m (hp.subset List.mem_concat_self)).dispatches
  once _ m hp hm := absurd hm (h₀ m (hp.subset List.mem_concat_self)).obtains

namespace Scheduler

open Moment

variable {α β : Type} {sched : Scheduler} {n : Node} {holder key : String} {h : List Moment}
  {s : Site}

/-- A part of a tick is orderly at every moment, whatever others do; `post` says what it leaves. -/
abbrev Proceeds (key holder : String) (t : Program α) (post : α → List Moment → Prop)
    (h : List Moment) (s : Site) : Prop :=
  t.Guards (fun _ _ => True) (fun h _ => Orderly key holder h)
    (fun r h _ => ∀ a, r = .ok a → post a h) h s

theorem Proceeds.bind {t : Program α} {next : α → Program β} {mid : α → List Moment → Prop}
    {post : β → List Moment → Prop} (ht : Proceeds key holder t mid h s)
    (hnext : ∀ a h s, mid a h → Proceeds key holder (next a) post h s) :
    Proceeds key holder (t >>= next) post h s :=
  Guards.bind_ok ht hnext

/-- A part that keeps a condition. -/
theorem proceeds_of_every {E : Effect → Prop} {p : α → Prop} {P : List Moment → Prop}
    {t : Program α} (ht : t.Every E p) (hP : P h) (hinv : ∀ h, P h → Orderly key holder h)
    (hown : ∀ h m, E m.effect → P h → P (h ++ [m])) :
    Proceeds key holder t (fun a h => P h ∧ p a) h s := by
  refine (ht.guards (P := fun h _ => P h) (fun _ _ _ hP _ => hP)
    (fun h s e he hP => hown h ⟨s, e⟩ he hP) (fun h _ => hinv h) hP).imp ?_
  exact fun r h s hr a ha => ⟨hr.1, hr.2 a ha⟩

/-! ## A step -/

theorem proceeds_uptime (ho : Orderly key holder h) :
    Proceeds key holder Program.uptime (fun _ h' => Orderly key holder h' ∧
      ∃ m, h' = h ++ [m] ∧ m.effect = .uptime) h s := fun s' _ => by
  have hafter : Orderly key holder (h ++ [⟨s', .uptime⟩]) := ho.snoc False.elim False.elim
  refine ⟨hafter, ?_⟩
  rintro _ ⟨⟩
  exact ⟨hafter, _, rfl, rfl⟩

/-- Whoever keeps its lease has just renewed it. -/
theorem proceeds_keepsLease (hl : sched.lease = .stored holder)
    (ho : Orderly (leaseKey n) holder h) :
    Proceeds (leaseKey n) holder (sched.keepsLease n) (fun held h =>
      Orderly (leaseKey n) holder h ∧ (held = true → RenewedIn (leaseKey n) holder h)) h s := by
  let c : Call := .renewLease (leaseKey n) holder sched.config.leaseTimeoutMillis
  have hasked : Proceeds (leaseKey n) holder (Program.call c).attempt (fun r h =>
      Orderly (leaseKey n) holder h ∧
        (r = .ok true → RenewedIn (leaseKey n) holder h)) h s := by
    refine .attempt (.call fun s' _ => ?_)
    have hafter : Orderly (leaseKey n) holder (h ++ [⟨s', .store c⟩]) :=
      ho.snoc False.elim False.elim
    refine ⟨hafter, ?_⟩
    cases hreply : (s'.call c).1 with
    | ok held =>
      rintro _ ⟨⟩
      refine ⟨hafter, fun hheld => renewedIn_snoc ⟨rfl, ?_⟩⟩
      cases hheld
      exact (congrArg Prod.fst (Program.run_call _ s')).trans hreply
    | error f =>
      cases f with
      | error e =>
        rintro _ ⟨⟩
        exact ⟨hafter, by rintro ⟨⟩⟩
      | overflow o => rintro _ ⟨⟩
  rw [keepsLease, hl]
  refine hasked.bind ?_
  rintro (e | held) h s ⟨ho, hheld⟩ <;> rintro _ ⟨⟩
  · exact ⟨ho, by rintro ⟨⟩⟩
  · exact ⟨ho, fun hh => hheld (congrArg _ hh)⟩

/-- What is done in a step once it has renewed the lease. -/
theorem proceeds_within {t : Program α} {p : α → Prop} (ht : t.Every Effect.IsWithin p)
    (ho : Orderly key holder h) (hr : RenewedIn key holder h) :
    Proceeds key holder t
      (fun a h => (Orderly key holder h ∧ RenewedIn key holder h) ∧ p a) h s :=
  proceeds_of_every ht ⟨ho, hr⟩ (fun _ => And.left) fun _ _ hm hP =>
    ⟨hP.1.snoc (fun _ => hP.2) (absurd · hm.obtains), hP.2.snoc hm.uptime⟩

/-- **Any number of steps**: if they come to an end by themselves, the last one has renewed the
lease. -/
theorem proceeds_steps (hl : sched.lease = .stored holder) (deadline : Nat) :
    ∀ (count : Nat) (p : Progress) {h : List Moment} {s : Site}, Orderly (leaseKey n) holder h →
      Proceeds (leaseKey n) holder (sched.steps n deadline count p)
        (fun r h => Orderly (leaseKey n) holder h ∧
          (r.1 = .finished → RenewedIn (leaseKey n) holder h)) h s
  | 0, p, h, s, ho => by
      rintro _ ⟨⟩
      exact ⟨ho, by rintro ⟨⟩⟩
  | count + 1, p, h, s, ho => by
      refine (proceeds_uptime ho).bind fun now h s hlook => ?_
      obtain ⟨ho, -⟩ := hlook
      split
      · rintro _ ⟨⟩
        exact ⟨ho, by rintro ⟨⟩⟩
      refine (proceeds_keepsLease hl ho).bind fun held h s hheld => ?_
      obtain ⟨ho, hrenewed⟩ := hheld
      cases held with
      | false =>
        rintro _ ⟨⟩
        exact ⟨ho, by rintro ⟨⟩⟩
      | true =>
        have hroom : (sched.room n).Every Effect.IsWithin fun _ => True :=
          every_room ⟨id, by rintro ⟨⟩⟩
        have hfill (capacity : Nat) (p : Progress) : (sched.fill n capacity p).Every
            Effect.IsWithin fun p' => p'.sources.map (·.category) = p.sources.map (·.category) :=
          every_fill (fun _ => ⟨id, by rintro ⟨⟩⟩) ⟨id, by rintro ⟨⟩⟩
            (fun _ => ⟨id, by rintro ⟨⟩⟩) capacity p
        refine (proceeds_within hroom ho (hrenewed rfl)).bind fun capacity h s hr => ?_
        obtain ⟨⟨ho, hr⟩, -⟩ := hr
        split
        · rintro _ ⟨⟩
          exact ⟨ho, fun _ => hr⟩
        have hlookUps : (sched.refillAll (sched.filter n) p.sources).Every Effect.IsWithin
            fun ss => ∀ src ∈ ss, src.category ∈ p.sources.map (·.category) :=
          every_refillAll (fun _ _ _ => ⟨id, by rintro ⟨⟩⟩) fun src hsrc =>
            List.mem_map_of_mem hsrc
        refine (proceeds_within hlookUps ho hr).bind fun ss h s hss => ?_
        obtain ⟨⟨ho, hr⟩, -⟩ := hss
        split
        · rintro _ ⟨⟩
          exact ⟨ho, fun _ => hr⟩
        exact (proceeds_within (hfill _ _) ho hr).bind fun p' h s hp' =>
          proceeds_steps hl deadline count p' hp'.1.1

/-! ## A tick -/

theorem proceeds_schedule (hl : sched.lease = .stored holder) (r : Rotation) (limit : Nat)
    (ho : Orderly (leaseKey n) holder h) (h₀ : ∀ m ∈ h, m.effect ≠ .uptime) :
    Proceeds (leaseKey n) holder (sched.schedule n r limit) (fun result h =>
      Orderly (leaseKey n) holder h ∧ (result.1.incomplete = false →
        RenewedIn (leaseKey n) holder h ∨ NoStep h)) h s := by
  refine (proceeds_uptime ho).bind fun now h' s hlook => ?_
  obtain ⟨ho, m, rfl, -⟩ := hlook
  have hnone : NoStep (h ++ [m]) :=
    (noStep_of h₀).snoc fun ⟨_, m', hm', hlooked⟩ => h₀ m' hm' hlooked
  split
  · rintro _ ⟨⟩
  split
  · rintro _ ⟨⟩
    exact ⟨ho, fun _ => .inr hnone⟩
  refine (proceeds_steps hl _ limit _ ho).bind ?_
  rintro ⟨ending, p⟩ h s ⟨ho, hfinished⟩ _ ⟨⟩
  refine ⟨ho, fun hcomplete => .inl (hfinished ?_)⟩
  simpa using hcomplete

theorem proceeds_cancel (hl : sched.lease = .stored holder) {P : List Moment → Prop} (hP : P h)
    (hinv : ∀ h, P h → Orderly key holder h)
    (hown : ∀ h m, m.effect.IsAside → P h → P (h ++ [m])) :
    Proceeds key holder (sched.lease.cancel (leaseKey n)).attempt (fun _ h => P h) h s := by
  have hcall : (Program.call (.releaseLease (leaseKey n) holder)).Every Effect.IsAside
      fun _ => True := .call ⟨⟨id, by rintro ⟨⟩⟩, id⟩
  have hcancel : ((Lease.stored holder).cancel (leaseKey n)).Every Effect.IsAside fun _ => True :=
    hcall.bind fun _ _ => trivial
  rw [hl]
  exact (proceeds_of_every (hcancel.attempt) hP hinv hown).imp fun _ _ _ hr a ha => (hr a ha).1

theorem proceeds_tick (hl : sched.lease = .stored holder) (r : Rotation) (limit : Nat) :
    Proceeds (leaseKey n) holder (sched.tick n r limit) (fun result h =>
      result.1.incomplete = false → RenewedIn (leaseKey n) holder h ∨ NoStep h) [] s := by
  have hobstacle : (sched.obstacle n).Every Effect.IsAside fun _ => True :=
    every_obstacle ⟨⟨id, by rintro ⟨⟩⟩, id⟩
  refine (proceeds_of_every (P := fun h => ∀ m ∈ h, m.effect.IsAside) hobstacle
    (fun m hm => absurd hm List.not_mem_nil) (fun _ => orderly_of_aside) ?_).bind ?_
  · intro h m hm hP m' hm'
    rcases List.mem_append.mp hm' with hm' | hm'
    · exact hP m' hm'
    · rwa [List.mem_singleton.mp hm']
  rintro (_ | reason) h s ⟨haside, -⟩
  · -- the lease is asked for once, after nothing but looks
    have hasked : Proceeds (leaseKey n) holder
        (sched.lease.obtain (leaseKey n) sched.config.leaseTimeoutMillis)
        (fun _ h => Orderly (leaseKey n) holder h ∧ ∀ m ∈ h, m.effect ≠ .uptime) h s := by
      let c : Call := .obtainLease (leaseKey n) holder sched.config.leaseTimeoutMillis
      rw [hl]
      refine Guards.call (c := c) fun s' _ => ?_
      have hafter := (orderly_of_aside haside : Orderly (leaseKey n) holder h).snoc
        (m := ⟨s', .store c⟩) False.elim fun _ m hm => (haside m hm).obtains
      refine ⟨hafter, fun _ _ => ⟨hafter, fun m hm => ?_⟩⟩
      rcases List.mem_append.mp hm with hm | hm
      · exact (haside m hm).uptime
      · rw [List.mem_singleton.mp hm]
        rintro ⟨⟩
    refine hasked.bind fun held h s hheld => ?_
    obtain ⟨ho, h₀⟩ := hheld
    cases held with
    | false =>
      rintro _ ⟨⟩ -
      exact .inr (noStep_of h₀)
    | true =>
      refine (proceeds_schedule hl r limit ho h₀).bind fun result h s hresult => ?_
      refine (proceeds_cancel hl (P := fun h => Orderly (leaseKey n) holder h ∧
        (result.1.incomplete = false → RenewedIn (leaseKey n) holder h ∨ NoStep h)) hresult
        (fun _ => And.left) fun h m hm hP => ?_).bind ?_
      · refine ⟨hP.1.snoc (absurd · hm.dispatches) (absurd · hm.obtains), fun hc => ?_⟩
        exact (hP.2 hc).imp (·.snoc hm.uptime) (·.snoc fun hb => hm.uptime hb.1)
      · rintro _ h s ⟨-, hlast⟩ _ ⟨⟩
        exact hlast
  · rintro _ ⟨⟩ -
    exact .inr (noStep_of fun m hm => (haside m hm).uptime)

/-- **Every branch of a tick is orderly**, and a tick that is complete has renewed the lease in its
last step, if it has come to a step. -/
theorem orderly_of_follows (hl : sched.lease = .stored holder) {r : Rotation} {limit : Nat}
    {result : Except Failure (TickReport × Rotation)}
    (hf : (sched.tick n r limit).Follows h result) : Orderly (leaseKey n) holder h ∧
      ∀ report rotation, result = .ok (report, rotation) → report.incomplete = false →
        RenewedIn (leaseKey n) holder h ∨ NoStep h := by
  have hg := proceeds_tick (n := n) (s := .start .epoch .empty []) hl r limit
  obtain ⟨hinv, s', hpost⟩ := hg.of_follows (fun _ _ => trivial) hf
  refine ⟨?_, fun report rotation hresult hcomplete => hpost _ hresult hcomplete⟩
  rcases hinv with rfl | ⟨s', ho⟩
  · exact orderly_of_aside fun m hm => absurd hm List.not_mem_nil
  · exact ho

end Scheduler

end GeoReplication
