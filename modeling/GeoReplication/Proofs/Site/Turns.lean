import GeoReplication.Proofs.Program.Interleaved
import GeoReplication.Proofs.Site.Frame
import GeoReplication.Proofs.Store.Reached

/-!
# Proofs/Site/Turns — what anyone may do to the store

Whatever programs act at a site, and however they take turns, the store goes through operations
only (`Site.Turn.steps`).  So does a program that is under way while others act
(`Program.Reaches.turns`).
-/

namespace GeoReplication

open Relation

namespace Site

/-- An operation, unless it fails before it is carried out. -/
theorem steps_call (s : Site) (c : Call) :
    ReflTransGen Store.Step s.store (s.call c).2.store := by
  rcases s.store_call c with hsame | hrun
  · rw [hsame]
  · exact .single ⟨s.now, c, hrun⟩

theorem endFetch_snd (s : Site) (c : Copying) :
    (s.endFetch c).2 = ((s.note c false).meanwhile c).2 := by
  rw [endFetch]
  rcases (s.note c false).meanwhile c with ⟨e | ⟨⟩, s'⟩
  · rfl
  · cases c.rule.error <;> rfl

theorem steps_meanwhile (s : Site) (c : Copying) :
    ReflTransGen Store.Step s.store (s.meanwhile c).2.store := by
  obtain ⟨touched, htouched, hdone⟩ := s.meanwhile_snd c
  have hfirst : ReflTransGen Store.Step s.store touched.store := by
    rcases htouched with rfl | rfl
    · exact .refl
    · exact s.steps_call _
  rcases hdone with hdone | ⟨n, -, hdone⟩
  · rwa [hdone]
  · rw [hdone]
    exact hfirst.trans (touched.steps_call _)

/-- **Effects are operations** as far as the store is concerned. -/
theorem steps_perform (s : Site) (e : Effect) :
    ReflTransGen Store.Step s.store (s.perform e).2.store := by
  cases e with
  | store c => exact s.steps_call c
  | fetch url p part =>
    change ReflTransGen Store.Step s.store
      ((s.beginFetch url p part).2.endFetch (s.beginFetch url p part).1).2.store
    rw [endFetch_snd]
    have hbegun : ((s.beginFetch url p part).2.note (s.beginFetch url p part).1 false).store =
        s.store := rfl
    rw [← hbegun]
    exact steps_meanwhile _ _
  | lease c =>
    change ReflTransGen Store.Step s.store (s.askLease c).2.store
    rw [store_askLease]
  | _ => exact .refl

/-- Someone performs an effect, or something happens that leaves the store alone. -/
inductive Turn : Site → Site → Prop
  | acts (s : Site) (e : Effect) : Turn s (s.perform e).2
  | elsewhere {s s' : Site} : s'.store = s.store → Turn s s'

theorem Turn.steps {s s' : Site} (h : ReflTransGen Turn s s') :
    ReflTransGen Store.Step s.store s'.store := by
  refine ReflTransGen.lift' Site.store (fun a b hab => ?_) _ _ h
  change ReflTransGen Store.Step a.store b.store
  cases hab with
  | acts e => exact a.steps_perform e
  | elsewhere hsame => rw [hsame]

end Site

/-- A program that is under way while others act is one of those who act. -/
theorem Program.Reaches.turns {α : Type} {t t' : Program α} {s s' : Site} {h : List Moment}
    (hr : t.Reaches Site.Turn s h t' s') : ReflTransGen Site.Turn s s' := by
  induction hr with
  | start => exact .refl
  | others _ ho ih => exact ih.tail ho
  | own _ ih => exact ih.tail (.acts _ _)

/-- The next effects of a program are turns. -/
theorem Program.turns_ahead {α : Type} (t : Program α) (count : Nat) (s : Site) :
    ReflTransGen Site.Turn s (t.ahead count s).2.2 :=
  (Reaches.ahead count .start).turns

end GeoReplication
