import GeoReplication.Proofs.Program.Interleaved

/-!
# Proofs/Program/Follows — which way through a program a history is

A program is a tree, and the effects of a run with what they were answered pick one branch of it.
`Program.Follows` says that a list of moments is such a branch from the root to a leaf, whatever
happened between the moments.  `Every.guards_follows` reads a part of a longer run back as the
branch it took.
-/

namespace GeoReplication.Program

variable {α β : Type} {others : Site → Site → Prop} {h : List Moment} {s : Site}

/-- **A branch**: the moments are the effects of the program in order, each with the answer that the
next goes on from, and the program ends with `r`. -/
def Follows : Program α → List Moment → Except Failure α → Prop
  | done a, h, r => h = [] ∧ r = .ok a
  | failed f, h, r => h = [] ∧ r = .error f
  | perform e k, h, r =>
    ∃ s h', h = ⟨s, e⟩ :: h' ∧ (k (Moment.reply ⟨s, e⟩)).Follows h' r

theorem follows_ofExcept {r r' : Except Failure α} :
    (ofExcept r).Follows h r' ↔ h = [] ∧ r' = r := by
  cases r <;> exact Iff.rfl

theorem follows_call {c : Call} {r : Except Failure c.Reply} :
    (call c).Follows h r ↔ ∃ s, h = [⟨s, .store c⟩] ∧ r = (s.call c).1 := by
  constructor
  · rintro ⟨s, h', rfl, hrest⟩
    obtain ⟨rfl, rfl⟩ := follows_ofExcept.mp hrest
    exact ⟨s, rfl, rfl⟩
  · rintro ⟨s, rfl, rfl⟩
    exact ⟨s, [], rfl, follows_ofExcept.mpr ⟨rfl, rfl⟩⟩

/-- A branch of one program after another. -/
theorem follows_bind {t : Program α} {next : α → Program β} {r : Except Failure β} :
    (t >>= next).Follows h r ↔
      (∃ f, t.Follows h (.error f) ∧ r = .error f) ∨
        ∃ a h₁ h₂, h = h₁ ++ h₂ ∧ t.Follows h₁ (.ok a) ∧ (next a).Follows h₂ r := by
  induction t generalizing h with
  | done a =>
    constructor
    · exact fun hn => .inr ⟨a, [], h, rfl, ⟨rfl, rfl⟩, hn⟩
    · rintro (⟨f, ⟨-, hf⟩, -⟩ | ⟨a, h₁, h₂, rfl, ⟨rfl, ha⟩, hn⟩)
      · cases hf
      · cases ha
        exact hn
  | failed f =>
    constructor
    · rintro ⟨rfl, rfl⟩
      exact .inl ⟨f, ⟨rfl, rfl⟩, rfl⟩
    · rintro (⟨f, ⟨rfl, hf⟩, rfl⟩ | ⟨a, h₁, h₂, -, ⟨-, ha⟩, -⟩)
      · cases hf
        exact ⟨rfl, rfl⟩
      · cases ha
  | perform e k ih =>
    constructor
    · rintro ⟨s, h', rfl, hrest⟩
      rcases (ih _).mp hrest with ⟨f, hf, rfl⟩ | ⟨a, h₁, h₂, rfl, ha, hn⟩
      · exact .inl ⟨f, ⟨s, h', rfl, hf⟩, rfl⟩
      · exact .inr ⟨a, ⟨s, e⟩ :: h₁, h₂, rfl, ⟨s, h₁, rfl, ha⟩, hn⟩
    · rintro (⟨f, ⟨s, h', rfl, hf⟩, rfl⟩ | ⟨a, h₁, h₂, rfl, ⟨s, h', rfl, ha⟩, hn⟩)
      · exact ⟨s, h', rfl, (ih _).mpr (.inl ⟨f, hf, rfl⟩)⟩
      · exact ⟨s, h' ++ h₂, rfl, (ih _).mpr (.inr ⟨a, h', h₂, rfl, ha, hn⟩)⟩

/-- A branch on which what comes next may be exchanged. -/
theorem Follows.bind_imp {t : Program α} {next next' : α → Program β} {r : Except Failure β}
    (hf : (t >>= next).Follows h r)
    (hnext : ∀ a h₁ h₂, h = h₁ ++ h₂ → t.Follows h₁ (.ok a) → (next a).Follows h₂ r →
      (next' a).Follows h₂ r) : (t >>= next').Follows h r := by
  rcases follows_bind.mp hf with herror | ⟨a, h₁, h₂, heq, hfirst, hrest⟩
  · exact follows_bind.mpr (.inl herror)
  · exact follows_bind.mpr (.inr ⟨a, h₁, h₂, heq, hfirst, hnext a h₁ h₂ heq hfirst hrest⟩)

/-- A branch on which what comes first may be exchanged. -/
theorem Follows.first_imp {t t' : Program α} {next : α → Program β} {r : Except Failure β}
    (hf : (t >>= next).Follows h r)
    (hfirst : ∀ r₁ h₁ h₂, h = h₁ ++ h₂ → t.Follows h₁ r₁ → t'.Follows h₁ r₁) :
    (t' >>= next).Follows h r := by
  rcases follows_bind.mp hf with ⟨f, herror, rfl⟩ | ⟨a, h₁, h₂, heq, hstart, hrest⟩
  · have hwhole := hfirst _ h [] (List.append_nil h).symm herror
    exact follows_bind.mpr (.inl ⟨f, hwhole, rfl⟩)
  · exact follows_bind.mpr (.inr ⟨a, h₁, h₂, heq, hfirst _ h₁ h₂ heq hstart, hrest⟩)

/-- A value that nothing had to be caught for. -/
theorem follows_attempt {t : Program α} {a : α} :
    t.attempt.Follows h (.ok (.ok a)) ↔ t.Follows h (.ok a) := by
  induction t generalizing h with
  | done b => exact and_congr_right fun _ => by simp
  | failed f => cases f <;> simp [attempt, Follows]
  | perform e k ih => exact exists₂_congr fun s h' => and_congr_right fun _ => ih _

/-- A value that a branch ends with is one the program can give. -/
theorem Every.of_follows {E : Effect → Prop} {p : α → Prop} {t : Program α} {a : α}
    (ht : t.Every E p) (hf : t.Follows h (.ok a)) : p a := by
  induction t generalizing h with
  | done b =>
    obtain ⟨-, hb⟩ := hf
    cases hb
    exact ht
  | failed f => exact absurd hf.2 (by rintro ⟨⟩)
  | perform e k ih =>
    obtain ⟨s, h', -, hrest⟩ := hf
    exact ih _ (ht.2 _) hrest

/-- All that is done on a branch is something the program can do. -/
theorem Every.effect_of_follows {E : Effect → Prop} {p : α → Prop} {t : Program α}
    {r : Except Failure α} (ht : t.Every E p) (hf : t.Follows h r) : ∀ m ∈ h, E m.effect := by
  induction t generalizing h with
  | done a =>
    obtain ⟨rfl, -⟩ := hf
    exact fun m hm => absurd hm List.not_mem_nil
  | failed f =>
    obtain ⟨rfl, -⟩ := hf
    exact fun m hm => absurd hm List.not_mem_nil
  | perform e k ih =>
    obtain ⟨s, h', rfl, hrest⟩ := hf
    exact List.forall_mem_cons.mpr ⟨ht.1, ih _ (ht.2 _) hrest⟩

/-- Every program has branches, at whatever sites its effects are carried out. -/
theorem exists_follows (s : Site) (t : Program α) : ∃ h r, t.Follows h r := by
  induction t with
  | done a => exact ⟨[], _, rfl, rfl⟩
  | failed f => exact ⟨[], _, rfl, rfl⟩
  | perform e k ih =>
    obtain ⟨h, r, hf⟩ := ih (Moment.reply ⟨s, e⟩)
    exact ⟨⟨s, e⟩ :: h, r, s, h, rfl, hf⟩

/-! ## Guarded runs and their branches -/

section Guards

open Relation

variable {inv inv' : List Moment → Site → Prop}
  {post : Except Failure α → List Moment → Site → Prop} {t : Program α}

/-- A run guards the same when something came before it. -/
theorem Guards.since (h₀ : List Moment) (hg : t.Guards others inv post h s) :
    t.Guards others (fun h' s => ∃ h, h' = h₀ ++ h ∧ inv h s)
      (fun r h' s => ∃ h, h' = h₀ ++ h ∧ post r h s) (h₀ ++ h) s := by
  induction t generalizing h s with
  | done a => exact ⟨h, rfl, hg⟩
  | failed f => exact ⟨h, rfl, hg⟩
  | perform e k ih =>
    intro s' hs
    obtain ⟨hi, hrest⟩ := hg s' hs
    rw [List.append_assoc]
    exact ⟨⟨_, rfl, hi⟩, ih _ hrest⟩

/-- If others may do anything, a guarded run is any branch. -/
theorem Guards.of_follows {h' : List Moment} {r : Except Failure α} (hothers : ∀ s s', others s s')
    (hg : t.Guards others inv post h s) (hf : t.Follows h' r) :
    (h' = [] ∨ ∃ s', inv (h ++ h') s') ∧ ∃ s', post r (h ++ h') s' := by
  induction t generalizing h s h' with
  | done a =>
    obtain ⟨rfl, rfl⟩ := hf
    rw [List.append_nil]
    exact ⟨.inl rfl, s, hg⟩
  | failed f =>
    obtain ⟨rfl, rfl⟩ := hf
    rw [List.append_nil]
    exact ⟨.inl rfl, s, hg⟩
  | perform e k ih =>
    obtain ⟨s', h', rfl, hrest⟩ := hf
    obtain ⟨hi, hnext⟩ := hg s' (.single (hothers s s'))
    obtain ⟨hinv, hpost⟩ := ih _ hnext hrest
    rw [← List.append_cons] at hinv hpost
    refine ⟨.inr ?_, hpost⟩
    rcases hinv with rfl | hinv
    · exact ⟨_, hi⟩
    · exact hinv

/-- One program after another, where only values matter. -/
theorem Guards.bind_ok {mid : α → List Moment → Site → Prop} {post : β → List Moment → Site → Prop}
    {next : α → Program β}
    (hg : t.Guards others inv (fun r h s => ∀ a, r = .ok a → mid a h s) h s)
    (hnext : ∀ a h s, mid a h s →
      (next a).Guards others inv (fun r h s => ∀ b, r = .ok b → post b h s) h s) :
    (t >>= next).Guards others inv (fun r h s => ∀ b, r = .ok b → post b h s) h s := by
  refine Guards.bind (hg.imp fun r h s hr => ?_)
  cases r with
  | ok a => exact hnext a h s (hr a rfl)
  | error f => rintro _ ⟨⟩

theorem Guards.ofExcept {r : Except Failure α} (hp : post r h s) :
    (ofExcept r).Guards others inv post h s := by
  cases r <;> exact hp

theorem Guards.call {c : Call} {post : Except Failure c.Reply → List Moment → Site → Prop}
    (hc : ∀ s', ReflTransGen others s s' → inv (h ++ [⟨s', .store c⟩]) (s'.call c).2 ∧
      post (s'.call c).1 (h ++ [⟨s', .store c⟩]) (s'.call c).2) :
    (call c).Guards others inv post h s := fun s' hs => ⟨(hc s' hs).1, .ofExcept (hc s' hs).2⟩

theorem Guards.queue {name : String} {c : QueueCall}
    {post : Except Failure c.Reply → List Moment → Site → Prop}
    (hc : ∀ s', ReflTransGen others s s' → inv (h ++ [⟨s', .queue name c⟩]) (s'.onQueue name c).2 ∧
      post (.ok (s'.onQueue name c).1) (h ++ [⟨s', .queue name c⟩]) (s'.onQueue name c).2) :
    (queue name c).Guards others inv post h s := hc

/-- A condition that neither others nor the effects of a program touch holds until its end, and what
was done until then is a branch of the program. -/
theorem Every.guards_follows {E : Effect → Prop} {p : α → Prop} {P : List Moment → Site → Prop}
    (ht : t.Every E p)
    (hothers : ∀ h s s', P h s → others s s' → P h s')
    (hown : ∀ h s e, E e → P h s → P (h ++ [⟨s, e⟩]) (Moment.after ⟨s, e⟩))
    (hinv : ∀ h s, P h s → inv h s) (h0 : P h s) :
    t.Guards others inv (fun r h' s' => ∃ ms, h' = h ++ ms ∧ t.Follows ms r ∧ P h' s') h s := by
  induction t generalizing h s with
  | done a => exact ⟨[], (List.append_nil h).symm, ⟨rfl, rfl⟩, h0⟩
  | failed f => exact ⟨[], (List.append_nil h).symm, ⟨rfl, rfl⟩, h0⟩
  | perform e k ih =>
    intro s' hs
    have hp : P h s' := kept_by_others (hothers h) h0 hs
    have hp' := hown h s' e ht.1 hp
    refine ⟨hinv _ _ hp', (ih _ (ht.2 _) hp').imp ?_⟩
    rintro r h' s'' ⟨ms, rfl, hms, hp''⟩
    exact ⟨⟨s', e⟩ :: ms, by rw [List.append_assoc]; rfl, ⟨s', ms, rfl, hms⟩, hp''⟩

theorem Every.guards {E : Effect → Prop} {p : α → Prop} {P : List Moment → Site → Prop}
    (ht : t.Every E p)
    (hothers : ∀ h s s', P h s → others s s' → P h s')
    (hown : ∀ h s e, E e → P h s → P (h ++ [⟨s, e⟩]) (Moment.after ⟨s, e⟩))
    (hinv : ∀ h s, P h s → inv h s) (h0 : P h s) :
    t.Guards others inv (fun r h s => P h s ∧ ∀ a, r = .ok a → p a) h s := by
  refine (ht.guards_follows hothers hown hinv h0).imp ?_
  rintro r h' s' ⟨ms, -, hms, hp⟩
  refine ⟨hp, ?_⟩
  rintro a rfl
  exact ht.of_follows hms

end Guards

end GeoReplication.Program
