import GeoReplication.Proofs.Program.Follows
import Mathlib.Logic.Function.Basic

/-!
# Proofs/Program/Abreast — programs under way side by side

    (t₁, t₂, s) ── effect of t₁ ──▸ (t₁', t₂, s') ── effect of t₂ ──▸ (t₁', t₂', s'') ──▸ …

Programs that start together take turns effect by effect, in any order, and others may act as well.
`Program.Abreast` are the moments such a run can come to, with the history of all turns.  What one
program did is a branch of it (`Abreast.follows`), and each turn starts from the site that the one
before has left, but for what others did (`Abreast.chained`).
-/

namespace GeoReplication.Program

open Relation

variable {ι α : Type} [DecidableEq ι] {others : Site → Site → Prop} {t t' : ι → Program α}
  {s s' : Site} {h h₁ h₂ : List (ι × Moment)} {i : ι}

/-- What programs that start together at a site can come to: the turns so far, what is left of each
program, and the site. -/
inductive Abreast (others : Site → Site → Prop) (t : ι → Program α) (s : Site) :
    List (ι × Moment) → (ι → Program α) → Site → Prop
  | start : Abreast others t s [] t s
  | others {h : List (ι × Moment)} {t' : ι → Program α} {s' s'' : Site} :
    Abreast others t s h t' s' → others s' s'' → Abreast others t s h t' s''
  | turn {h : List (ι × Moment)} {t' : ι → Program α} {s' : Site} {i : ι} {e : Effect}
      {k : e.Reply → Program α} :
    Abreast others t s h t' s' → t' i = perform e k →
      Abreast others t s (h ++ [(i, ⟨s', e⟩)])
        (Function.update t' i (k (Moment.reply ⟨s', e⟩))) (Moment.after ⟨s', e⟩)

/-! ## The turns of one program -/

/-- What one program did. -/
def movesOf (i : ι) (h : List (ι × Moment)) : List Moment := (h.filter (·.1 = i)).map Prod.snd

theorem movesOf_append : movesOf i (h₁ ++ h₂) = movesOf i h₁ ++ movesOf i h₂ := by
  rw [movesOf, List.filter_append, List.map_append, ← movesOf, ← movesOf]

theorem movesOf_cons (i : ι) (j : ι) (m : Moment) (h : List (ι × Moment)) :
    movesOf i ((j, m) :: h) = if j = i then m :: movesOf i h else movesOf i h := by
  rw [movesOf, List.filter_cons]
  by_cases hji : j = i <;> simp [hji, movesOf]

theorem mem_movesOf {m : Moment} : m ∈ movesOf i h ↔ (i, m) ∈ h := by
  simp [movesOf]

theorem movesOf_eq_nil_iff : movesOf i h = [] ↔ ∀ e ∈ h, e.1 ≠ i := by
  simp [movesOf]

/-- Where in the history a move of a program stands. -/
theorem exists_of_movesOf_eq {m : Moment} {ms₁ ms₂ : List Moment}
    (hm : movesOf i h = ms₁ ++ m :: ms₂) : ∃ before after, h = before ++ (i, m) :: after ∧
      movesOf i before = ms₁ ∧ movesOf i after = ms₂ := by
  obtain ⟨turns, rest, hturns, rfl, hrest⟩ := List.map_eq_append_iff.mp hm
  obtain ⟨⟨j, m⟩, rest, rfl, rfl, rfl⟩ := List.map_eq_cons_iff.mp hrest
  obtain ⟨before, tail, rfl, rfl, htail⟩ := List.filter_eq_append_iff.mp hturns
  obtain ⟨skipped, after, rfl, hskipped, hj, rfl⟩ := List.filter_eq_cons_iff.mp htail
  obtain rfl := of_decide_eq_true hj
  refine ⟨before ++ skipped, after, by rw [List.append_assoc], ?_, rfl⟩
  rw [movesOf_append, movesOf_eq_nil_iff.mpr fun e he heq => hskipped e he (decide_eq_true heq),
    List.append_nil]
  rfl

/-- **What one program did is a branch of it**, from its root to what is left of it. -/
theorem Abreast.follows (hr : Abreast others t s h t' s') {ms : List Moment}
    {r : Except Failure α} (hf : (t' i).Follows ms r) : (t i).Follows (movesOf i h ++ ms) r := by
  induction hr generalizing ms with
  | start => exact hf
  | others _ _ ih => exact ih hf
  | @turn h t' s' j e k _ hj ih =>
    rw [movesOf_append, movesOf_cons, List.append_assoc]
    by_cases hji : j = i
    · subst hji
      rw [Function.update_self] at hf
      rw [if_pos rfl]
      exact ih (by rw [hj]; exact ⟨s', ms, rfl, hf⟩)
    · rw [Function.update_of_ne (Ne.symm hji)] at hf
      rw [if_neg hji]
      exact ih hf

/-- What a program that has ended did is a whole branch of it. -/
theorem Abreast.follows_done {a : α} (hr : Abreast others t s h t' s') (hi : t' i = done a) :
    (t i).Follows (movesOf i h) (.ok a) := by
  have hleaf : (t' i).Follows [] (.ok a) := by
    rw [hi]
    exact ⟨rfl, rfl⟩
  have hbranch := hr.follows hleaf
  rwa [List.append_nil] at hbranch

/-- What one program has done so far goes on to a branch of it. -/
theorem Abreast.exists_follows (hr : Abreast others t s h t' s') (i : ι) :
    ∃ ms r, (t i).Follows (movesOf i h ++ ms) r := by
  obtain ⟨ms, r, hf⟩ := Program.exists_follows s (t' i)
  exact ⟨ms, r, hr.follows hf⟩

/-- All that one program did is something it can do. -/
theorem Abreast.effect_of_every {E : Effect → Prop} {p : α → Prop}
    (hr : Abreast others t s h t' s') (ht : (t i).Every E p) :
    ∀ m, (i, m) ∈ h → E m.effect := fun m hm => by
  obtain ⟨ms, r, hf⟩ := hr.exists_follows i
  exact ht.effect_of_follows hf m (List.mem_append_left _ (mem_movesOf.mpr hm))

/-! ## From turn to turn -/

/-- Each moment starts from the site that the one before has left, but for what others did. -/
def Chained (others : Site → Site → Prop) : Site → List Moment → Site → Prop
  | s, [], s' => ReflTransGen others s s'
  | s, m :: ms, s' => ReflTransGen others s m.site ∧ Chained others m.after ms s'

theorem chained_append {m : Moment} {ms₂ : List Moment} :
    ∀ {ms₁ : List Moment} {s : Site}, Chained others s (ms₁ ++ m :: ms₂) s' ↔
      Chained others s ms₁ m.site ∧ Chained others m.after ms₂ s'
  | [], s => Iff.rfl
  | m₁ :: ms₁, s => by
      rw [List.cons_append, Chained, chained_append, ← and_assoc]
      rfl

theorem Chained.tail {s'' : Site} (ho : others s' s'') :
    ∀ {ms : List Moment} {s : Site}, Chained others s ms s' → Chained others s ms s''
  | [], _, hc => ReflTransGen.tail hc ho
  | _ :: _, _, hc => ⟨hc.1, Chained.tail ho hc.2⟩

theorem Abreast.chained (hr : Abreast others t s h t' s') :
    Chained others s (h.map Prod.snd) s' := by
  induction hr with
  | start => exact .refl
  | others _ ho ih => exact ih.tail ho
  | turn _ _ ih =>
    rw [List.map_append]
    exact chained_append.mpr ⟨ih, .refl⟩

/-- What led up to a turn, and what came of it. -/
theorem Abreast.chained_at {m : Moment} (hr : Abreast others t s (h₁ ++ (i, m) :: h₂) t' s') :
    Chained others s (h₁.map Prod.snd) m.site ∧ Chained others m.after (h₂.map Prod.snd) s' := by
  have hchain := hr.chained
  rw [List.map_append, List.map_cons] at hchain
  exact chained_append.mp hchain

/-- What others and every moment keep is kept. -/
theorem Chained.keeps {I : Site → Prop} (hothers : ∀ s s', I s → others s s' → I s') :
    ∀ {ms : List Moment} {s : Site}, Chained others s ms s' →
      (∀ m ∈ ms, I m.site → I m.after) → I s → I s'
  | [], _, hc, _, hs => kept_by_others hothers hs hc
  | m :: _, _, ⟨hfirst, hrest⟩, hms, hs =>
    hrest.keeps hothers (fun m' hm' => hms m' (List.mem_cons_of_mem m hm'))
      (hms m List.mem_cons_self (kept_by_others hothers hs hfirst))

/-! ## One program -/

section One

variable {t t' : Program α} {h : List Moment}

theorem Reaches.follows (hr : t.Reaches others s h t' s') {ms : List Moment} {r : Except Failure α}
    (hf : t'.Follows ms r) : t.Follows (h ++ ms) r := by
  induction hr generalizing ms with
  | start => exact hf
  | others _ _ ih => exact ih hf
  | @own h e k s' _ ih =>
    rw [List.append_assoc]
    exact ih ⟨s', ms, rfl, hf⟩

theorem Reaches.chained (hr : t.Reaches others s h t' s') : Chained others s h s' := by
  induction hr with
  | start => exact .refl
  | others _ ho ih => exact ih.tail ho
  | own _ ih => exact chained_append.mpr ⟨ih, .refl⟩

theorem Reaches.goesOn {s'' : Site} {a : α} : ∀ {ms h : List Moment} {t' : Program α} {s' : Site},
    t.Reaches others s h t' s' → t'.Follows ms (.ok a) → Chained others s' ms s'' →
      t.Reaches others s (h ++ ms) (done a) s''
  | [], h, done b, s', hr, hf, hc => by
      cases hf.2
      rw [List.append_nil]
      exact hr.wait hc
  | _ :: _, _, done _, _, _, hf, _ => absurd hf.1 (List.cons_ne_nil _ _)
  | _, _, failed _, _, _, hf, _ => by cases hf.2
  | [], _, perform _ _, _, _, ⟨_, _, heq, _⟩, _ => absurd heq.symm (List.cons_ne_nil _ _)
  | m :: ms, h, perform e k, s', hr, ⟨s₁, ms', heq, hf⟩, hc => by
      obtain ⟨rfl, rfl⟩ := List.cons.inj heq
      have hnext := ((hr.wait hc.1).own).goesOn hf hc.2
      rwa [← List.append_cons] at hnext

/-- **A whole run** is a branch, each moment of which starts from where the one before has left the
site, but for what others did. -/
theorem reaches_done_iff {a : α} :
    t.Reaches others s h (done a) s' ↔ t.Follows h (.ok a) ∧ Chained others s h s' := by
  refine ⟨fun hr => ⟨?_, hr.chained⟩, fun ⟨hf, hc⟩ => Reaches.start.goesOn hf hc⟩
  have hdone : (done a).Follows [] (.ok a) := ⟨rfl, rfl⟩
  have hbranch := hr.follows hdone
  rwa [List.append_nil] at hbranch

end One

/-! ## Turns in a given order -/

/-- The turns in the order given, with nothing else going on: what was done, what is left of the
programs, and the site. -/
def inTurn : List ι → (ι → Program α) → Site → List (ι × Moment) × (ι → Program α) × Site
  | [], t, s => ([], t, s)
  | i :: order, t, s =>
    match t i with
    | perform e k =>
      let (h, t', s') :=
        inTurn order (Function.update t i (k (Moment.reply ⟨s, e⟩))) (Moment.after ⟨s, e⟩)
      ((i, ⟨s, e⟩) :: h, t', s')
    | _ => inTurn order t s

/-- Any order is one of those in which they may act. -/
theorem Abreast.inTurn : ∀ (order : List ι) {h : List (ι × Moment)} {t' : ι → Program α}
    {s' : Site}, Abreast others t s h t' s' →
      Abreast others t s (h ++ (Program.inTurn order t' s').1) (Program.inTurn order t' s').2.1
        (Program.inTurn order t' s').2.2
  | [], h, t', s', hr => by simpa [Program.inTurn] using hr
  | i :: order, h, t', s', hr => by
      cases hi : t' i with
      | done a => simpa [Program.inTurn, hi] using hr.inTurn order
      | failed f => simpa [Program.inTurn, hi] using hr.inTurn order
      | perform e k => simpa [Program.inTurn, hi] using (hr.turn hi).inTurn order

/-- The value of a program that has ended with one. -/
def value? : Program α → Option α
  | done a => some a
  | _ => none

theorem eq_done_of_value? {p : Program α} {a : α} (h : p.value? = some a) : p = done a := by
  cases p <;> cases h
  rfl

end GeoReplication.Program
