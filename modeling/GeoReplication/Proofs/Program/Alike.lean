import GeoReplication.Proofs.Program.Run
import GeoReplication.Proofs.Site.Frame

/-!
# Proofs/Program/Alike — two runs side by side

    s ───t───▸ (r, s₁)
    R          p   R
    s' ──t'──▸ (r', s₁')

Two programs run alike if, started on any two sites that are related by `R`, they end with the same
failure or with values that are related by `p`, and leave sites that are related again.  A program
runs alike with itself if each of its effects is answered the same on related sites
(`Alike.of_every`); the other rules take programs apart that are answered differently.
-/

namespace GeoReplication

open Program

/-- The same failure, or related values. -/
def Agree {ε α β : Type} (p : α → β → Prop) : Except ε α → Except ε β → Prop
  | .ok a, .ok b => p a b
  | .error f, .error g => f = g
  | _, _ => False

namespace Agree

variable {ε α β : Type} {p q : α → β → Prop}

theorem imp {x : Except ε α} {y : Except ε β} (h : Agree p x y) (hpq : ∀ a b, p a b → q a b) :
    Agree q x y := by
  cases x <;> cases y
  · exact h
  · exact h
  · exact h
  · exact hpq _ _ h

theorem of_eq {r : α → α → Prop} (hr : ∀ a, r a a) {x y : Except ε α} (h : x = y) :
    Agree r x y := by
  subst h
  cases x
  · exact rfl
  · exact hr _

theorem eq {x y : Except ε α} (h : Agree (· = ·) x y) : x = y := by
  cases x <;> cases y
  · exact congrArg _ h
  · exact h.elim
  · exact h.elim
  · exact congrArg _ h

end Agree

/-- The effect is answered the same on related sites, and leaves them related. -/
def Effect.SameOn (R : Site → Site → Prop) (e : Effect) : Prop :=
  ∀ s s', R s s' → (s.perform e).1 = (s'.perform e).1 ∧ R (s.perform e).2 (s'.perform e).2

namespace Program

variable {α β γ δ : Type} {R : Site → Site → Prop} {p : α → β → Prop} {q : γ → δ → Prop}
  {t : Program α} {t' : Program β}

/-- On related sites the programs end alike and leave the sites related. -/
def Alike (R : Site → Site → Prop) (p : α → β → Prop) (t : Program α) (t' : Program β) : Prop :=
  ∀ s s', R s s' → Agree p (t.run s).1 (t'.run s').1 ∧ R (t.run s).2 (t'.run s').2

namespace Alike

theorem imp {p' : α → β → Prop} (h : Alike R p t t') (hp : ∀ a b, p a b → p' a b) :
    Alike R p' t t' := fun s s' hs => ⟨(h s s' hs).1.imp hp, (h s s' hs).2⟩

theorem pure {a : α} {b : β} (h : p a b) : Alike R p (Pure.pure a) (Pure.pure b) :=
  fun _ _ hs => ⟨h, hs⟩

theorem fail (e : Error) : Alike R p (Program.fail e) (Program.fail e) := fun _ _ hs => ⟨rfl, hs⟩

theorem bind {next : α → Program γ} {next' : β → Program δ} (h : Alike R p t t')
    (hnext : ∀ a b, p a b → Alike R q (next a) (next' b)) :
    Alike R q (t >>= next) (t' >>= next') := fun s s' hs => by
  obtain ⟨hvalue, hsites⟩ := h s s' hs
  rw [run_bind, run_bind]
  rcases ht : t.run s with ⟨f | a, s₁⟩ <;> rcases ht' : t'.run s' with ⟨g | b, s₁'⟩ <;>
    rw [ht, ht'] at hvalue hsites
  · exact ⟨hvalue, hsites⟩
  · exact hvalue.elim
  · exact hvalue.elim
  · exact hnext a b hvalue s₁ s₁' hsites

theorem attempt (h : Alike R p t t') :
    Alike R (Agree p) t.attempt t'.attempt := fun s s' hs => by
  obtain ⟨hvalue, hsites⟩ := h s s' hs
  rw [run_attempt, run_attempt]
  rcases ht : t.run s with ⟨(e | o) | a, s₁⟩ <;>
    rcases ht' : t'.run s' with ⟨(e' | o') | b, s₁'⟩ <;> rw [ht, ht'] at hvalue hsites
  · exact ⟨Failure.error.inj hvalue, hsites⟩
  · cases hvalue
  · exact hvalue.elim
  · cases hvalue
  · exact ⟨hvalue, hsites⟩
  · exact hvalue.elim
  · exact hvalue.elim
  · exact hvalue.elim
  · exact ⟨hvalue, hsites⟩

/-! Where the values are the same. -/

theorem bind_eq {t t' : Program α} {next : α → Program γ} {next' : α → Program δ}
    (h : Alike R (· = ·) t t') (hnext : ∀ a, Alike R q (next a) (next' a)) :
    Alike R q (t >>= next) (t' >>= next') :=
  h.bind fun a _ hab => hab ▸ hnext a

theorem attempt_eq {t t' : Program α} (h : Alike R (· = ·) t t') :
    Alike R (· = ·) t.attempt t'.attempt := h.attempt.imp fun _ _ => Agree.eq

theorem call {c : Call} {r : c.Reply → c.Reply → Prop}
    (h : ∀ s s', R s s' → Agree r (s.call c).1 (s'.call c).1 ∧ R (s.call c).2 (s'.call c).2) :
    Alike R r (Program.call c) (Program.call c) := fun s s' hs => by
  rw [run_call, run_call]
  exact h s s' hs

/-- **Answered the same, a program runs the same.** -/
theorem of_every {v : α → Prop} (h : t.Every (Effect.SameOn R) v) : Alike R (· = ·) t t := by
  induction t with
  | done a => exact fun s s' hs => ⟨rfl, hs⟩
  | failed f => exact fun s s' hs => ⟨rfl, hs⟩
  | perform e k ih =>
    intro s s' hs
    obtain ⟨hreply, hsites⟩ := h.1 s s' hs
    rw [run_perform, run_perform, ← hreply]
    exact ih _ (h.2 _) _ _ hsites

end Alike

end Program

/-! ## Sites with different stores -/

/-- The sites differ at most in the store and in the notes on copies, and there as `Q` and `J`
say. -/
inductive Site.Beside (Q : Store → Store → Prop) (J : List FetchNote → List FetchNote → Prop)
    (s : Site) : Site → Prop
  | intro {store : Store} {journal : List FetchNote} : Q s.store store → J s.journal journal →
    Beside Q J s { s with store, journal }

namespace Site.Beside

variable {Q : Store → Store → Prop} {J : List FetchNote → List FetchNote → Prop} {s s' : Site}

theorem store (h : Beside Q J s s') : Q s.store s'.store := by
  cases h
  assumption

theorem queues (h : Beside Q J s s') : s'.queues = s.queues := by
  cases h
  rfl

/-- A fault fails an operation on both sites, or on neither. -/
theorem call (h : Beside Q J s s') {c : Call} {r : c.Reply → c.Reply → Prop}
    (hc : Agree r (c.run s.now s.store).1 (c.run s.now s'.store).1 ∧
      Q (c.run s.now s.store).2 (c.run s.now s'.store).2) :
    Agree r (s.call c).1 (s'.call c).1 ∧ Beside Q J (s.call c).2 (s'.call c).2 := by
  cases h with
  | intro hstore hjournal =>
    simp only [Site.call]
    split
    · exact ⟨rfl, .intro hstore hjournal⟩
    · exact ⟨hc.1, .intro hc.2 hjournal⟩

theorem sameOn_store {c : Call}
    (hc : ∀ now s s', Q s s' → (c.run now s).1 = (c.run now s').1 ∧
      Q (c.run now s).2 (c.run now s').2) :
    Effect.SameOn (Beside Q J) (.store c) := fun s s' h => by
  obtain ⟨hreply, hstore⟩ := hc s.now s.store s'.store h.store
  obtain ⟨hagree, hsites⟩ := h.call (r := (· = ·)) ⟨.of_eq (fun _ => rfl) hreply, hstore⟩
  exact ⟨hagree.eq, hsites⟩

theorem sameOn_clock : Effect.SameOn (Beside Q J) .clock := by
  rintro s _ ⟨hstore, hjournal⟩
  exact ⟨rfl, .intro hstore hjournal⟩

theorem sameOn_uptime : Effect.SameOn (Beside Q J) .uptime := by
  rintro s _ ⟨hstore, hjournal⟩
  exact ⟨rfl, .intro hstore hjournal⟩

theorem sameOn_queue (name : String) (c : QueueCall) :
    Effect.SameOn (Beside Q J) (.queue name c) := by
  rintro s _ ⟨hstore, hjournal⟩
  exact ⟨rfl, .intro hstore hjournal⟩

theorem sameOn_lease (c : LeaseCall) : Effect.SameOn (Beside Q J) (.lease c) := by
  rintro s _ ⟨hstore, hjournal⟩
  cases c with
  | obtain key ttl => exact ⟨rfl, .intro hstore hjournal⟩
  | renew key ttl =>
    simp only [perform, askLease, pass]
    cases s.lease.renewals <;> exact ⟨rfl, .intro hstore hjournal⟩
  | cancel key =>
    simp only [perform, askLease]
    cases s.lease.cancel <;> exact ⟨rfl, .intro hstore hjournal⟩

end Site.Beside

theorem Program.alike_clock {Q : Store → Store → Prop}
    {J : List FetchNote → List FetchNote → Prop} :
    Alike (Site.Beside Q J) (· = ·) clock clock :=
  .of_every (v := fun _ => True) ⟨Site.Beside.sameOn_clock, fun _ => trivial⟩

/-! ## Runs that end alike -/

/-- Two runs end with the same value or failure and with the same queues, and their stores are
related. -/
structure SameEnd {α : Type} (Q : Store → Store → Prop) (x x' : Except Failure α × Site) :
    Prop where
  result : x'.1 = x.1
  queues : x'.2.queues = x.2.queues
  stores : Q x.2.store x'.2.store

theorem Program.Alike.sameEnd {α : Type} {Q : Store → Store → Prop}
    {J : List FetchNote → List FetchNote → Prop} {t t' : Program α}
    (h : Alike (Site.Beside Q J) (· = ·) t t') {s s' : Site} (hs : Site.Beside Q J s s') :
    SameEnd Q (t.run s) (t'.run s') := by
  obtain ⟨hvalue, hsites⟩ := h s s' hs
  exact ⟨hvalue.eq.symm, hsites.queues, hsites.store⟩

end GeoReplication
