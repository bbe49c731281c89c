import GeoReplication.Proofs.Program.Run
import Mathlib.Logic.Relation

/-!
# Proofs/Program/Interleaved — a program under way while others act

    (t, s) ── own effect ──▸ (t', s') ── others ──▸ (t', s'') ── own effect ──▸ …

Every effect is a point at which others may act; `others` says what they may do to the site.
`Program.Reaches` are the moments such a run can come to, with the history of the program's own
effects.  `Program.Guards` follows the tree and demands an invariant after each effect;
`Reaches.guards` turns it into a statement about every moment of every run.
-/

namespace GeoReplication

open Relation

/-- An effect of a run, and the site at which it was carried out. -/
structure Moment where
  site : Site
  effect : Effect

namespace Moment

/-- What was answered. -/
def reply (m : Moment) : m.effect.Reply := (m.site.perform m.effect).1

/-- The site afterwards. -/
def after (m : Moment) : Site := (m.site.perform m.effect).2

end Moment

namespace Program

variable {α β : Type} {others : Site → Site → Prop}

/-- What a program that starts at a site can come to: its own effects so far, what is left of it,
and the site. -/
inductive Reaches (others : Site → Site → Prop) (t : Program α) (s : Site) :
    List Moment → Program α → Site → Prop
  | start : Reaches others t s [] t s
  | others {h : List Moment} {t' : Program α} {s' s'' : Site} :
    Reaches others t s h t' s' → others s' s'' → Reaches others t s h t' s''
  | own {h : List Moment} {e : Effect} {k : e.Reply → Program α} {s' : Site} :
    Reaches others t s h (perform e k) s' →
      Reaches others t s (h ++ [⟨s', e⟩]) (k (Moment.reply ⟨s', e⟩)) (Moment.after ⟨s', e⟩)

/-- Others who may do more can do the same. -/
theorem Reaches.mono {others' : Site → Site → Prop} {t t' : Program α} {s s' : Site}
    {h : List Moment} (hr : t.Reaches others s h t' s')
    (hothers : ∀ s s', others s s' → others' s s') : t.Reaches others' s h t' s' := by
  induction hr with
  | start => exact .start
  | others _ ho ih => exact ih.others (hothers _ _ ho)
  | own _ ih => exact ih.own

/-- What others keep is kept however often they act. -/
theorem kept_by_others {I : Site → Prop} {s s' : Site}
    (hothers : ∀ s s', I s → others s s' → I s') (hs : I s) (hr : ReflTransGen others s s') :
    I s' := by
  induction hr with
  | refl => exact hs
  | tail _ ho ih => exact hothers _ _ ih ho

/-- Others may act any number of times. -/
theorem Reaches.wait {t t' : Program α} {s s' s'' : Site} {h : List Moment}
    (hr : t.Reaches others s h t' s') (hs : ReflTransGen others s' s'') :
    t.Reaches others s h t' s'' := by
  induction hs with
  | refl => exact hr
  | tail _ ho ih => exact ih.others ho

/-- While the first of two programs is under way, both are. -/
theorem Reaches.bind {t t' : Program α} {s s' : Site} {h : List Moment}
    (hr : t.Reaches others s h t' s') (next : α → Program β) :
    (t >>= next).Reaches others s h (t' >>= next) s' := by
  induction hr with
  | start => exact .start
  | others _ ho ih => exact ih.others ho
  | own _ ih => exact ih.own

/-- The next `count` effects with nothing else going on: what they are, and what comes of them. -/
def ahead : Program α → (count : Nat) → Site → List Moment × Program α × Site
  | perform e k, count + 1, s =>
    let (h, t', s') := (k (Moment.reply ⟨s, e⟩)).ahead count (Moment.after ⟨s, e⟩)
    (⟨s, e⟩ :: h, t', s')
  | t, _, s => ([], t, s)

/-- What is reached by going on alone. -/
theorem Reaches.ahead {t : Program α} {s : Site} :
    ∀ (count : Nat) {h : List Moment} {t' : Program α} {s' : Site}, t.Reaches others s h t' s' →
      t.Reaches others s (h ++ (t'.ahead count s').1) (t'.ahead count s').2.1
        (t'.ahead count s').2.2
  | 0, h, t', s', hr => by simpa [Program.ahead] using hr
  | count + 1, h, done a, s', hr => by simpa [Program.ahead] using hr
  | count + 1, h, failed f, s', hr => by simpa [Program.ahead] using hr
  | count + 1, h, perform e k, s', hr => by simpa [Program.ahead] using hr.own.ahead count

/-- What follows when a program has ended, given what follows its value. -/
def Ends (post : Except Failure β → List Moment → Site → Prop)
    (next : α → List Moment → Site → Prop) (r : Except Failure α) (h : List Moment) (s : Site) :
    Prop :=
  match r with
  | .ok a => next a h s
  | .error f => post (.error f) h s

/-- After each effect `inv` holds, and `post` in the end, whatever others do in between; `h` is the
history so far. -/
def Guards (others : Site → Site → Prop) (inv : List Moment → Site → Prop)
    (post : Except Failure α → List Moment → Site → Prop) :
    Program α → List Moment → Site → Prop
  | done a, h, s => post (.ok a) h s
  | failed f, h, s => post (.error f) h s
  | perform e k, h, s => ∀ s', ReflTransGen others s s' →
      inv (h ++ [⟨s', e⟩]) (Moment.after ⟨s', e⟩) ∧
        (k (Moment.reply ⟨s', e⟩)).Guards others inv post (h ++ [⟨s', e⟩]) (Moment.after ⟨s', e⟩)

section Guards

variable {inv : List Moment → Site → Prop} {h : List Moment} {s s' : Site}

/-- **Every moment of every run**: the invariant holds, and what is left of the program still guards
it. -/
theorem Reaches.guards {post : Except Failure α → List Moment → Site → Prop} {t t' : Program α}
    (hr : t.Reaches others s h t' s') (hg : t.Guards others inv post [] s)
    (hinv : ∀ h s s', inv h s → others s s' → inv h s') (h0 : inv [] s) :
    inv h s' ∧ ∃ s₁, ReflTransGen others s₁ s' ∧ t'.Guards others inv post h s₁ := by
  induction hr with
  | start => exact ⟨h0, s, .refl, hg⟩
  | others _ ho ih =>
    obtain ⟨hi, s₁, hs, hg⟩ := ih
    exact ⟨hinv _ _ _ hi ho, s₁, hs.tail ho, hg⟩
  | own _ ih =>
    obtain ⟨-, s₁, hs, hg⟩ := ih
    obtain ⟨hi, hg⟩ := hg _ hs
    exact ⟨hi, _, .refl, hg⟩

theorem Guards.imp {post post' : Except Failure α → List Moment → Site → Prop} {t : Program α}
    (hg : t.Guards others inv post h s) (hp : ∀ r h s, post r h s → post' r h s) :
    t.Guards others inv post' h s := by
  induction t generalizing h s with
  | done a => exact hp _ _ _ hg
  | failed f => exact hp _ _ _ hg
  | perform e k ih => exact fun s' hs => ⟨(hg s' hs).1, ih _ (hg s' hs).2⟩

theorem Guards.bind {post : Except Failure β → List Moment → Site → Prop} {t : Program α}
    {next : α → Program β}
    (hg : t.Guards others inv (Ends post fun a => (next a).Guards others inv post) h s) :
    (t >>= next).Guards others inv post h s := by
  induction t generalizing h s with
  | done a => exact hg
  | failed f => exact hg
  | perform e k ih => exact fun s' hs => ⟨(hg s' hs).1, ih _ (hg s' hs).2⟩

/-- Catching errors hands them on as values. -/
theorem Guards.attempt {post : Except Failure (Except Error α) → List Moment → Site → Prop}
    {t : Program α}
    (hg : t.Guards others inv (fun r h s => match r with
      | .ok a => post (.ok (.ok a)) h s
      | .error (.error e) => post (.ok (.error e)) h s
      | .error (.overflow o) => post (.error (.overflow o)) h s) h s) :
    t.attempt.Guards others inv post h s := by
  induction t generalizing h s with
  | done a => exact hg
  | failed f => cases f <;> exact hg
  | perform e k ih => exact fun s' hs => ⟨(hg s' hs).1, ih _ (hg s' hs).2⟩

end Guards

end Program

end GeoReplication
