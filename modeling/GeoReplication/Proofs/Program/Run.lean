import GeoReplication.Site.Basic

/-!
# Proofs/Program/Run — how a program runs, effect by effect

Two ways to speak of all effects of a program.  `Program.Every` is about the tree: it bounds the
effects a program can perform and the values it can give, whatever it is answered.
`Program.Throughout` is about one run at one site: a condition that every effect met there, with
nothing else going on.
-/

namespace GeoReplication.Program

variable {α β : Type} {E : Effect → Prop} {s s' : Site}

/-! ## Single effects -/

@[simp] theorem run_call (c : Call) (s : Site) : (call c).run s = s.call c := by
  change (ofExcept (s.call c).1).run (s.call c).2 = _
  cases h : (s.call c).1 <;> exact Prod.ext h.symm rfl

@[simp] theorem run_queue (name : String) (c : QueueCall) (s : Site) :
    (queue name c).run s = (.ok (s.onQueue name c).1, (s.onQueue name c).2) := rfl

@[simp] theorem run_clock (s : Site) : clock.run s = (.ok s.now, s) := rfl

@[simp] theorem run_uptime (s : Site) : uptime.run s = (.ok s.uptime, s) := rfl

@[simp] theorem run_lease (c : LeaseCall) (s : Site) : (lease c).run s = s.askLease c := by
  change (ofExcept (s.askLease c).1).run (s.askLease c).2 = _
  cases h : (s.askLease c).1 <;> exact Prod.ext h.symm rfl

@[simp] theorem run_fetch (primaryUrl : String) (p : Project) (part : Part) (s : Site) :
    (fetch primaryUrl p part).run s = s.perform (.fetch primaryUrl p part) := by
  change (ofExcept (s.perform (.fetch primaryUrl p part)).1).run
    (s.perform (.fetch primaryUrl p part)).2 = _
  cases h : (s.perform (.fetch primaryUrl p part)).1 <;> exact Prod.ext h.symm rfl

/-! ## Composition -/

theorem run_bind_ok {t : Program α} {a : α} (h : t.run s = (.ok a, s')) (next : α → Program β) :
    (t >>= next).run s = (next a).run s' := by rw [run_bind, h]

/-- Catching errors leaves the site as the program left it. -/
theorem run_attempt (t : Program α) (s : Site) :
    t.attempt.run s =
      match t.run s with
      | (.ok a, s') => (.ok (.ok a), s')
      | (.error (.error e), s') => (.ok (.error e), s')
      | (.error (.overflow o), s') => (.error (.overflow o), s') := by
  induction t generalizing s with
  | done a => rfl
  | failed f => cases f <;> rfl
  | perform e k ih => exact ih _ _

/-! ## Whatever is answered -/

/-- Every effect the program can perform satisfies `E`, and every value it can give satisfies
`p`. -/
def Every (E : Effect → Prop) (p : α → Prop) : Program α → Prop
  | done a => p a
  | failed _ => True
  | perform e k => E e ∧ ∀ r, (k r).Every E p

namespace Every

theorem imp {p q : α → Prop} {t : Program α} (h : t.Every E p) (hpq : ∀ a, p a → q a) :
    t.Every E q := by
  induction t with
  | done a => exact hpq a h
  | failed f => trivial
  | perform e k ih => exact ⟨h.1, fun r => ih r (h.2 r)⟩

theorem bind {p : α → Prop} {q : β → Prop} {t : Program α} {next : α → Program β}
    (h : t.Every E p) (hnext : ∀ a, p a → (next a).Every E q) : (t >>= next).Every E q := by
  induction t with
  | done a => exact hnext a h
  | failed f => trivial
  | perform e k ih => exact ⟨h.1, fun r => ih r (h.2 r)⟩

theorem attempt {p : α → Prop} {t : Program α} (h : t.Every E p) :
    t.attempt.Every E fun r => ∀ a, r = .ok a → p a := by
  induction t with
  | done a => rintro _ ⟨⟩; exact h
  | failed f =>
    cases f with
    | error e => rintro _ ⟨⟩
    | overflow o => trivial
  | perform e k ih => exact ⟨h.1, fun r => ih r (h.2 r)⟩

/-- An effect whose answer may be a failure. -/
theorem ofExcept (r : Except Failure α) : (ofExcept r).Every E fun _ => True := by
  cases r <;> trivial

theorem call {c : Call} (h : E (.store c)) : (call c).Every E fun _ => True :=
  ⟨h, fun r => ofExcept r⟩

theorem lease {c : LeaseCall} (h : E (.lease c)) : (lease c).Every E fun _ => True :=
  ⟨h, fun r => ofExcept r⟩

theorem uptime (h : E .uptime) : Program.uptime.Every E fun _ => True := ⟨h, fun _ => trivial⟩

/-- What each effect keeps is kept until the end. -/
theorem run_keeps {p : α → Prop} {I : Site → Prop} {t : Program α} (h : t.Every E p)
    (hown : ∀ s e, E e → I s → I (s.perform e).2) (hs : I s) : I (t.run s).2 := by
  induction t generalizing s with
  | done a => exact hs
  | failed f => exact hs
  | perform e k ih => exact ih _ (h.2 _) (hown s e h.1 hs)

end Every

/-! ## Throughout a run -/

/-- `P` holds of every effect of the run and the site at which it is carried out. -/
def Throughout (P : Site → Effect → Prop) : Program α → Site → Prop
  | done _, _ => True
  | failed _, _ => True
  | perform e k, s => P s e ∧ (k (s.perform e).1).Throughout P (s.perform e).2

instance decidableThroughout {P : Site → Effect → Prop} [∀ s e, Decidable (P s e)] :
    ∀ (t : Program α) (s : Site), Decidable (t.Throughout P s)
  | done _, _ => .isTrue trivial
  | failed _, _ => .isTrue trivial
  | perform e k, s =>
    have := decidableThroughout (P := P) (k (s.perform e).1) (s.perform e).2
    inferInstanceAs (Decidable (P s e ∧ (k (s.perform e).1).Throughout P (s.perform e).2))

section Throughout

variable {P : Site → Effect → Prop}

@[simp] theorem throughout_done (a : α) (s : Site) : (done a).Throughout P s := trivial

@[simp] theorem throughout_pure (a : α) (s : Site) : (pure a : Program α).Throughout P s := trivial

theorem throughout_of (h : ∀ s e, P s e) {t : Program α} : t.Throughout P s := by
  induction t generalizing s with
  | done a => trivial
  | failed f => trivial
  | perform e k ih => exact ⟨h s e, ih _⟩

theorem throughout_bind {t : Program α} {next : α → Program β} :
    (t >>= next).Throughout P s ↔
      t.Throughout P s ∧ ∀ a s', t.run s = (.ok a, s') → (next a).Throughout P s' := by
  induction t generalizing s with
  | done a =>
    refine ⟨fun h => ⟨trivial, ?_⟩, fun h => h.2 a s rfl⟩
    rintro _ _ ⟨⟩
    exact h
  | failed f => exact ⟨fun _ => ⟨trivial, fun _ _ h => by cases h⟩, fun _ => trivial⟩
  | perform e k ih =>
    change _ ∧ (k _ >>= next).Throughout P _ ↔ _
    rw [ih, ← and_assoc]
    rfl

theorem throughout_call {c : Call} : (call c).Throughout P s ↔ P s (.store c) := by
  refine ⟨fun h => h.1, fun h => ⟨h, ?_⟩⟩
  change (ofExcept (s.call c).1).Throughout P _
  cases (s.call c).1 <;> trivial

theorem throughout_lease {c : LeaseCall} : (lease c).Throughout P s ↔ P s (.lease c) := by
  refine ⟨fun h => h.1, fun h => ⟨h, ?_⟩⟩
  change (ofExcept (s.askLease c).1).Throughout P _
  cases (s.askLease c).1 <;> trivial

theorem throughout_uptime : uptime.Throughout P s ↔ P s .uptime := ⟨And.left, fun h => ⟨h, trivial⟩⟩

end Throughout

/-! ## Runs on which all goes well -/

/-- If `P` holds throughout the run, it gives a value, and `post` holds of it and of the site it
leaves. -/
def Achieves (P : Site → Effect → Prop) (t : Program α) (s : Site) (post : α → Site → Prop) :
    Prop :=
  t.Throughout P s → ∃ a s', t.run s = (.ok a, s') ∧ post a s'

namespace Achieves

variable {P : Site → Effect → Prop} {t : Program α} {post post' : α → Site → Prop}

theorem pure {a : α} (h : post a s) : Achieves P (Pure.pure a) s post := fun _ => ⟨a, s, rfl, h⟩

theorem imp (h : Achieves P t s post) (hp : ∀ a s, post a s → post' a s) :
    Achieves P t s post' := fun hwell => by
  obtain ⟨a, s', hrun, ha⟩ := h hwell
  exact ⟨a, s', hrun, hp a s' ha⟩

theorem bind {next : α → Program β} {post' : β → Site → Prop} (h : Achieves P t s post)
    (hnext : ∀ a s, post a s → Achieves P (next a) s post') :
    Achieves P (t >>= next) s post' := fun hwell => by
  obtain ⟨hfirst, hrest⟩ := throughout_bind.mp hwell
  obtain ⟨a, s', hrun, ha⟩ := h hfirst
  obtain ⟨b, s'', hrun', hb⟩ := hnext a s' ha (hrest a s' hrun)
  exact ⟨b, s'', by rw [run_bind_ok hrun, hrun'], hb⟩

/-- Nothing but an overflow gets past `attempt`. -/
theorem attempt_of_ne_overflow {post : Except Error α → Site → Prop}
    (hrun : ∀ o, (t.run s).1 ≠ .error (.overflow o)) (hpost : ∀ r, post r (t.run s).2) :
    Achieves P t.attempt s post := fun _ => by
  rw [run_attempt]
  rcases h : t.run s with ⟨(e | o) | a, s'⟩
  · exact ⟨_, s', rfl, by simpa [h] using hpost (.error e)⟩
  · exact absurd (congrArg Prod.fst h) (hrun o)
  · exact ⟨_, s', rfl, by simpa [h] using hpost (.ok a)⟩

theorem uptime {post : Nat → Site → Prop} (h : P s .uptime → post s.uptime s) :
    Achieves P Program.uptime s post := fun hwell =>
  ⟨_, _, run_uptime s, h (throughout_uptime.mp hwell)⟩

theorem call {c : Call} {post : c.Reply → Site → Prop}
    (hok : P s (.store c) → ∃ r, (s.call c).1 = .ok r ∧ post r (s.call c).2) :
    Achieves P (Program.call c) s post := fun hwell => by
  obtain ⟨r, hreply, hpost⟩ := hok (throughout_call.mp hwell)
  exact ⟨r, _, (run_call c s).trans (Prod.ext hreply rfl), hpost⟩

theorem lease {c : LeaseCall} {post : c.Reply → Site → Prop}
    (hok : P s (.lease c) → ∃ r, (s.askLease c).1 = .ok r ∧ post r (s.askLease c).2) :
    Achieves P (Program.lease c) s post := fun hwell => by
  obtain ⟨r, hreply, hpost⟩ := hok (throughout_lease.mp hwell)
  exact ⟨r, _, (run_lease c s).trans (Prod.ext hreply rfl), hpost⟩

end Achieves

end GeoReplication.Program
