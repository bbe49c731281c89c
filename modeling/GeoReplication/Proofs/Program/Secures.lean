import GeoReplication.Proofs.Program.Follows

/-!
# Proofs/Program/Secures — what a run comes to if its effects go a certain way

`Program.Guards` asks for an invariant at every moment of every run.  `Program.Secures` asks only
how a run ends, and only of those runs whose own effects all meet a condition `F`: no look-up fails,
say, or every copy succeeds.  Others may act between the effects as before.  `Secures.run` and
`Reaches.secures` say what this means for a run alone and for one with others, `Secures.of_follows`
for a branch.
-/

namespace GeoReplication.Program

open Relation

variable {α β : Type} {others : Site → Site → Prop} {F : Site → Effect → Prop} {excuse : Prop}
  {t : Program α} {s s' : Site} {h : List Moment}

/-- If every effect meets `F`, `post` holds in the end, whatever others do in between. -/
def Secures (others : Site → Site → Prop) (F : Site → Effect → Prop)
    (post : Except Failure α → Site → Prop) : Program α → Site → Prop
  | done a, s => post (.ok a) s
  | failed f, s => post (.error f) s
  | perform e k, s => ∀ s', ReflTransGen others s s' → F s' e →
      (k (s'.perform e).1).Secures others F post (s'.perform e).2

/-- The end is a value with `post`; a failure needs an excuse. -/
def Returns (excuse : Prop) (post : α → Site → Prop) : Except Failure α → Site → Prop
  | .ok a, s => post a s
  | .error _, _ => excuse

/-! ## What is secured -/

/-- A run alone. -/
theorem Secures.run {post : Except Failure α → Site → Prop} (ht : t.Secures others F post s)
    (hF : t.Throughout F s) : post (t.run s).1 (t.run s).2 := by
  induction t generalizing s with
  | done a => exact ht
  | failed f => exact ht
  | perform e k ih => exact ih _ (ht s .refl hF.1) hF.2

/-- A run alone that needs no excuse. -/
theorem Secures.achieves {post : α → Site → Prop}
    (ht : t.Secures others F (Returns False post) s) : Achieves F t s post := fun hF => by
  have hend := ht.run hF
  rcases hrun : t.run s with ⟨f | a, s'⟩
  · rw [hrun] at hend
    exact hend.elim
  · rw [hrun] at hend
    exact ⟨a, s', rfl, hend⟩

/-- **A run with others**: what is left of the program still secures its end. -/
theorem Reaches.secures {post : Except Failure α → Site → Prop} {t' : Program α}
    (hr : t.Reaches others s h t' s') (hF : ∀ m ∈ h, F m.site m.effect)
    (ht : t.Secures others F post s) :
    ∃ s₁, ReflTransGen others s₁ s' ∧ t'.Secures others F post s₁ := by
  induction hr with
  | start => exact ⟨s, .refl, ht⟩
  | others _ ho ih =>
    obtain ⟨s₁, hs, ht'⟩ := ih hF
    exact ⟨s₁, hs.tail ho, ht'⟩
  | own _ ih =>
    obtain ⟨s₁, hs, ht'⟩ := ih fun m hm => hF m (List.mem_append_left _ hm)
    exact ⟨_, .refl, ht' _ hs (hF _ List.mem_concat_self)⟩

/-- **A branch**: what is secured whatever is answered holds at its end. -/
theorem Secures.of_follows {post : Except Failure α → Site → Prop} {r : Except Failure α}
    (hothers : ∀ s s', others s s') (ht : t.Secures others (fun _ _ => True) post s)
    (hf : t.Follows h r) : ∃ s', post r s' := by
  induction t generalizing s h with
  | done a =>
    obtain ⟨-, rfl⟩ := hf
    exact ⟨s, ht⟩
  | failed f =>
    obtain ⟨-, rfl⟩ := hf
    exact ⟨s, ht⟩
  | perform e k ih =>
    obtain ⟨s', h', -, hrest⟩ := hf
    exact ih _ (ht s' (.single (hothers s s')) trivial) hrest

/-- From any moment of a run the rest may run alone. -/
theorem Reaches.alone {t' : Program α} {s₁ : Site} {r : Except Failure α}
    (hr : t.Reaches others s h t' s₁) (hh : ∀ m ∈ h, F m.site m.effect)
    (hF : t'.Throughout F s₁) (hrun : t'.run s₁ = (r, s')) :
    ∃ h', t.Reaches others s h' (Program.ofExcept r) s' ∧ ∀ m ∈ h', F m.site m.effect := by
  induction t' generalizing s₁ h with
  | done b =>
    cases hrun
    exact ⟨h, hr, hh⟩
  | failed f =>
    cases hrun
    exact ⟨h, hr, hh⟩
  | perform e k ih =>
    refine ih _ hr.own (fun m hm => ?_) hF.2 hrun
    rcases List.mem_append.mp hm with hm | hm
    · exact hh m hm
    · rw [List.mem_singleton.mp hm]
      exact hF.1

/-- A run alone is one of those with others. -/
theorem reaches_alone {r : Except Failure α} (hF : t.Throughout F s) (hrun : t.run s = (r, s')) :
    ∃ h, t.Reaches others s h (ofExcept r) s' ∧ ∀ m ∈ h, F m.site m.effect :=
  Reaches.start.alone (fun _ hm => absurd hm List.not_mem_nil) hF hrun

/-! ## Rules -/

namespace Secures

theorem imp {post post' : Except Failure α → Site → Prop} (ht : t.Secures others F post s)
    (hp : ∀ r s, post r s → post' r s) : t.Secures others F post' s := by
  induction t generalizing s with
  | done a => exact hp _ _ ht
  | failed f => exact hp _ _ ht
  | perform e k ih => exact fun s' hs hF => ih _ (ht s' hs hF)

/-- A weaker claim about the value. -/
theorem weaken {post post' : α → Site → Prop}
    (ht : t.Secures others F (Returns excuse post) s) (hp : ∀ a s, post a s → post' a s) :
    t.Secures others F (Returns excuse post') s := by
  refine ht.imp fun r s hr => ?_
  cases r with
  | ok a => exact hp a s hr
  | error f => exact hr

/-- One program after another, however the first of them ends. -/
theorem andThen {next : α → Program β} {post : Except Failure β → Site → Prop}
    (ht : t.Secures others F (fun r s => match r with
      | .ok a => (next a).Secures others F post s
      | .error f => post (.error f) s) s) :
    (t >>= next).Secures others F post s := by
  induction t generalizing s with
  | done a => exact ht
  | failed f => exact ht
  | perform e k ih => exact fun s' hs hF => ih _ (ht s' hs hF)

theorem bind {next : α → Program β} {M : α → Site → Prop} {post : β → Site → Prop}
    (ht : t.Secures others F (Returns excuse M) s)
    (hnext : ∀ a s, M a s → (next a).Secures others F (Returns excuse post) s) :
    (t >>= next).Secures others F (Returns excuse post) s := by
  refine andThen (ht.imp fun r s hr => ?_)
  cases r with
  | ok a => exact hnext a s hr
  | error f => exact hr

/-- Catching errors hands them on as values. -/
theorem attempt {post : Except Error α → Site → Prop}
    (ht : t.Secures others F (fun r s => match r with
      | .ok a => post (.ok a) s
      | .error (.error e) => post (.error e) s
      | .error (.overflow _) => excuse) s) :
    t.attempt.Secures others F (Returns excuse post) s := by
  induction t generalizing s with
  | done a => exact ht
  | failed f => cases f <;> exact ht
  | perform e k ih => exact fun s' hs hF => ih _ (ht s' hs hF)

/-- Of a program that does not fail nothing is caught. -/
theorem attempt_ok {post : α → Site → Prop} (ht : t.Secures others F (Returns excuse post) s)
    (hexcuse : ¬ excuse) :
    t.attempt.Secures others F (Returns excuse fun r s => ∃ a, r = .ok a ∧ post a s) s := by
  refine attempt (ht.imp fun r s hr => ?_)
  cases r with
  | ok a => exact ⟨a, rfl, hr⟩
  | error f => exact absurd hr hexcuse

/-- An effect, where `I` is what others keep. -/
theorem perform {e : Effect} {k : e.Reply → Program α} {post : Except Failure α → Site → Prop}
    {I : Site → Prop} (hI : I s) (hothers : ∀ s s', I s → others s s' → I s')
    (hnext : ∀ s, I s → F s e → (k (s.perform e).1).Secures others F post (s.perform e).2) :
    (Program.perform e k).Secures others F post s :=
  fun s' hs => hnext s' (kept_by_others hothers hI hs)

theorem ofExcept {post : Except Failure α → Site → Prop} {r : Except Failure α} (hr : post r s) :
    (ofExcept r).Secures others F post s := by
  cases r <;> exact hr

/-- What others and the effects of a program keep is kept, however the run goes. -/
theorem of_every {E : Effect → Prop} {p : α → Prop} {I : Site → Prop} (ht : t.Every E p)
    (hI : I s) (hothers : ∀ s s', I s → others s s' → I s')
    (hown : ∀ s e, E e → I s → I (s.perform e).2) :
    t.Secures others F (Returns True fun a s => p a ∧ I s) s := by
  induction t generalizing s with
  | done a => exact ⟨ht, hI⟩
  | failed f => trivial
  | perform e k ih => exact perform hI hothers fun s hs _ => ih _ (ht.2 _) (hown s e ht.1 hs)

/-- What a program can give, it gives, however the run goes. -/
theorem of_values {E : Effect → Prop} {p : α → Prop} (ht : t.Every E p) :
    t.Secures others F (Returns True fun a _ => p a) s :=
  (of_every (I := fun _ => True) ht trivial (fun _ _ _ _ => trivial) fun _ _ _ _ => trivial).weaken
    fun _ _ h => h.1

section Effects

variable {I : Site → Prop} (hI : I s) (hothers : ∀ s s', I s → others s s' → I s')

include hI hothers

theorem call {c : Call} {post : Except Failure c.Reply → Site → Prop}
    (hc : ∀ s, I s → F s (.store c) → post (s.call c).1 (s.call c).2) :
    (Program.call c).Secures others F post s :=
  perform hI hothers fun s hs hF => ofExcept (hc s hs hF)

/-- An attempted operation hands on what it was answered. -/
theorem attempt_call (c : Call) :
    (Program.call c).attempt.Secures others F (Returns True fun r s' => ∃ s, I s ∧
      s' = (s.call c).2 ∧ ∀ a, r = .ok a → (s.call c).1 = .ok a) s := by
  refine .attempt (call hI hothers fun s hs _ => ?_)
  cases hreply : (s.call c).1 with
  | ok a => exact ⟨s, hs, rfl, fun b hb => by cases hb; exact hreply⟩
  | error f =>
    cases f
    · exact ⟨s, hs, rfl, fun b hb => by cases hb⟩
    · trivial

theorem lease {c : LeaseCall} {post : Except Failure c.Reply → Site → Prop}
    (hc : ∀ s, I s → F s (.lease c) → post (s.askLease c).1 (s.askLease c).2) :
    (Program.lease c).Secures others F post s :=
  perform hI hothers fun s hs hF => ofExcept (hc s hs hF)

theorem fetch {primaryUrl : String} {p : Project} {part : Part}
    {post : Except Failure Unit → Site → Prop}
    (hc : ∀ s, I s → F s (.fetch primaryUrl p part) →
      post (s.perform (.fetch primaryUrl p part)).1 (s.perform (.fetch primaryUrl p part)).2) :
    (Program.fetch primaryUrl p part).Secures others F post s :=
  perform hI hothers fun s hs hF => ofExcept (hc s hs hF)

theorem queue {name : String} {c : QueueCall} {post : c.Reply → Site → Prop}
    (hc : ∀ s, I s → post (s.onQueue name c).1 (s.onQueue name c).2) :
    (Program.queue name c).Secures others F (Returns excuse post) s :=
  perform hI hothers fun s hs _ => hc s hs

theorem uptime {post : Nat → Site → Prop} (hc : ∀ s, I s → F s .uptime → post s.uptime s) :
    Program.uptime.Secures others F (Returns excuse post) s := perform hI hothers hc

theorem clock {post : Time.Instant → Site → Prop} (hc : ∀ s, I s → F s .clock → post s.now s) :
    Program.clock.Secures others F (Returns excuse post) s := perform hI hothers hc

end Effects

/-- What is secured holds in the end of every run, and its history is known as far as the effects of
the program are. -/
theorem guards {E : Effect → Prop} {p : α → Prop} {post : α → Site → Prop}
    (ht : t.Secures others F (Returns excuse post) s) (he : t.Every E p)
    (hF : ∀ s e, E e → F s e) :
    t.Guards others (fun _ _ => True) (fun r h' s' => ∀ a, r = .ok a → post a s' ∧ p a ∧
      ∃ ms, h' = h ++ ms ∧ ∀ m ∈ ms, E m.effect) h s := by
  induction t generalizing h s with
  | done a =>
    rintro _ ⟨⟩
    exact ⟨ht, he, [], (List.append_nil h).symm, fun m hm => absurd hm List.not_mem_nil⟩
  | failed f => rintro _ ⟨⟩
  | perform e k ih =>
    intro s' hs
    refine ⟨trivial, (ih _ (ht s' hs (hF s' e he.1)) (he.2 _)).imp ?_⟩
    rintro r h' s'' hr a rfl
    obtain ⟨hpost, hp, ms, rfl, hms⟩ := hr a rfl
    exact ⟨hpost, hp, ⟨s', e⟩ :: ms, by simp, List.forall_mem_cons.mpr ⟨he.1, hms⟩⟩

end Secures

end GeoReplication.Program
