import GeoReplication.Proofs.Program.Alike
import GeoReplication.Proofs.Status.OneStore

/-!
# Proofs/Status/Broken — operations that fail each time

    s without faults  ──question──▸  the answer   s without faults
    s broken down     ──question──▸  the same, or an error if it is hit   s broken down

A breakdown makes operations of some kinds fail whenever they are tried.  Questions leave the site
as it is, broken down or not, so a program that only asks can be followed on both sites at once: it
runs the same as long as it asks nothing that is hit (`sameOn_call`), and what it asks and catches
is as without the breakdown, or the default (`leavesOut_orDefault`).
-/

namespace GeoReplication

open Program

/-- Which operations fail each time, and with which error. -/
abbrev Breakdown := List (Call.Kind × Error)

namespace Breakdown

/-- Operations of this kind fail. -/
def hits (b : Breakdown) (kind : Call.Kind) : Bool := (b.lookup kind).isSome

/-- The faults that make them fail. -/
def faults (b : Breakdown) : List Fault := b.map fun (kind, error) => ⟨kind, 0, none, error⟩

/-- A lasting fault is never spent. -/
theorem ask_faults (b : Breakdown) (kind : Call.Kind) :
    Fault.ask kind b.faults = (b.lookup kind, b.faults) := by
  induction b with
  | nil => rfl
  | cons hit b ih =>
    obtain ⟨kind', error⟩ := hit
    by_cases hkind : kind' = kind
    · subst hkind
      simp [faults, Fault.ask, Fault.strike, List.lookup_cons_self]
    · have hne : (kind == kind') = false := beq_eq_false_iff_ne.mpr fun h => hkind h.symm
      have hrest : Fault.ask kind (faults ((kind', error) :: b)) =
          ((Fault.ask kind (faults b)).1,
            ⟨kind', 0, none, error⟩ :: (Fault.ask kind (faults b)).2) := by
        simp [faults, Fault.ask, hkind]
      rw [hrest, ih, List.lookup_cons, hne]
      rfl

end Breakdown

namespace Site

variable {b : Breakdown} {s s' : Site} {c : Call}

/-- The site broken down: some operations fail each time, and nothing else does. -/
def breaking (s : Site) (b : Breakdown) : Site := { s with faults := b.faults }

/-- A question is answered, unless it is hit, and leaves the site as it is. -/
theorem call_breaking (hc : c.writes = []) (s : Site) (b : Breakdown) :
    (s.breaking b).call c =
      (match b.lookup c.kind with
        | some e => .error (.error e)
        | none => (c.run s.now s.store).1, s.breaking b) := by
  rw [call, breaking, Breakdown.ask_faults]
  cases b.lookup c.kind with
  | some e => rfl
  | none =>
    have hstore : (c.run s.now s.store).2 = s.store := Call.run_of_writes_nil hc _ _
    dsimp only
    rw [hstore]

theorem exists_call_breaking (hc : c.writes = []) (hb : b.hits c.kind = true) (s : Site) :
    ∃ e, (s.breaking b).call c = (.error (.error e), s.breaking b) := by
  obtain ⟨e, he⟩ := Option.isSome_iff_exists.mp hb
  exact ⟨e, by rw [call_breaking hc, he]⟩

theorem perform_breaking {e : Effect} (he : e.IsQuestion) (s : Site) (b : Breakdown) :
    ((s.breaking b).perform e).2 = s.breaking b := by
  cases e with
  | store c => exact congrArg Prod.snd (call_breaking he s b)
  | clock => rfl
  | _ => exact he.elim

/-- The one site is without faults, the other is the same broken down. -/
def Under (b : Breakdown) (s s' : Site) : Prop :=
  ∃ s₀ : Site, s = s₀.breaking [] ∧ s' = s₀.breaking b

end Site

variable {b : Breakdown} {c : Call} {α : Type}

/-- What is not hit is answered the same. -/
theorem sameOn_call (hc : c.writes = []) (hb : b.hits c.kind = false) :
    Effect.SameOn (Site.Under b) (.store c) := by
  rintro _ _ ⟨s, rfl, rfl⟩
  have hnone : b.lookup c.kind = none := by simpa [Breakdown.hits] using hb
  change ((s.breaking []).call c).1 = ((s.breaking b).call c).1 ∧
    Site.Under b ((s.breaking []).call c).2 ((s.breaking b).call c).2
  rw [Site.call_breaking hc, Site.call_breaking hc, hnone]
  exact ⟨rfl, s, rfl, rfl⟩

theorem sameOn_clock : Effect.SameOn (Site.Under b) .clock := by
  rintro _ _ ⟨s, rfl, rfl⟩
  exact ⟨rfl, s, rfl, rfl⟩

namespace Program

variable {t : Program α} {d : α}

/-- What asks leaves the site as it is, broken down or not. -/
theorem run_breaking (ht : t.Every Effect.IsQuestion fun _ => True) (s : Site) (b : Breakdown) :
    (t.run (s.breaking b)).2 = s.breaking b :=
  ht.run_keeps (I := (· = s.breaking b))
    (fun _ _ he hs => by rw [hs, Site.perform_breaking he]) rfl

end Program

namespace StatusReport

variable {t : Program α} {d : α}

/-- What asks and is caught gives a value, and leaves the site as it is. -/
theorem exists_run_orDefault (hlooks : t.Looks) (hasks : t.Every Effect.IsQuestion fun _ => True)
    (d : α) (s : Site) (b : Breakdown) :
    ∃ a, (orDefault d t).run (s.breaking b) = (.ok a, s.breaking b) := by
  have hsite := run_breaking hasks s b
  rw [orDefault, run_bind, run_attempt]
  rcases hrun : t.run (s.breaking b) with ⟨(e | o) | a, s'⟩ <;> rw [hrun] at hsite <;>
    obtain rfl := hsite
  · exact ⟨d, rfl⟩
  · exact absurd (congrArg Prod.fst hrun) ((hlooks _).2 o)
  · exact ⟨a, rfl⟩

theorem run_orDefault_of_error (hasks : t.Every Effect.IsQuestion fun _ => True) {s : Site}
    {b : Breakdown} {e : Error} (h : (t.run (s.breaking b)).1 = .error (.error e)) :
    (orDefault d t).run (s.breaking b) = (.ok d, s.breaking b) := by
  have hrun : t.run (s.breaking b) = (.error (.error e), s.breaking b) :=
    Prod.ext h (run_breaking hasks s b)
  have hcaught : t.attempt.run (s.breaking b) = (.ok (.error e), s.breaking b) := by
    rw [run_attempt, hrun]
  rw [orDefault, run_bind_ok hcaught]
  rfl

/-- **What is asked and caught is as without the breakdown, or the default.** -/
theorem leavesOut_orDefault (hlooks : t.Looks) (hasks : t.Every Effect.IsQuestion fun _ => True)
    {hit : Bool} (hspared : hit = false → t.Every (Effect.SameOn (Site.Under b)) fun _ => True)
    (hhit : hit = true → ∀ s : Site, ∃ e, (t.run (s.breaking b)).1 = .error (.error e)) (d : α) :
    Alike (Site.Under b) (fun a a' => a' = if hit then d else a) (orDefault d t)
      (orDefault d t) := by
  cases hit with
  | false =>
    refine (Alike.of_every (hspared rfl)).attempt_eq.bind_eq fun r => ?_
    cases r <;> exact .pure rfl
  | true =>
    rintro _ _ ⟨s, rfl, rfl⟩
    obtain ⟨a, hleft⟩ := exists_run_orDefault hlooks hasks d s []
    obtain ⟨e, he⟩ := hhit rfl s
    rw [hleft, run_orDefault_of_error hasks he]
    exact ⟨rfl, s, rfl, rfl⟩

/-- One question to the store. -/
theorem leavesOut_ask {c : Call} (hc : c.writes = []) (d : c.Reply) :
    Alike (Site.Under b) (fun a a' => a' = if b.hits c.kind then d else a)
      (orDefault d (call c)) (orDefault d (call c)) := by
  refine leavesOut_orDefault (looks_call hc) (.call hc) (fun hb => .call (sameOn_call hc hb))
    (fun hb s => ?_) d
  obtain ⟨e, he⟩ := Site.exists_call_breaking hc hb s
  exact ⟨e, by rw [run_call, he]⟩

end StatusReport

end GeoReplication
