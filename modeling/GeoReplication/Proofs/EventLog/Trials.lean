import GeoReplication.EventLog
import GeoReplication.Proofs.Program.Follows
import GeoReplication.Proofs.Site.Frame
import GeoReplication.Proofs.Store.Events
import GeoReplication.Proofs.Store.Registries

/-!
# Proofs/EventLog/Trials — what becomes of the events that a run takes up

    e₁ applied, e₂ skipped, e₃ applied, e₄ failed │ e₅, e₆, … not taken up

An event taken up is a `Trial`: the event, and the moments of its application.  While no fault
claims that something was not found, an event is skipped only for want of its project
(`Trial.judged`), and the trials of a batch are a beginning of it that ends at the first failure
(`guards_applyAll`).
-/

namespace GeoReplication

/-- No fault claims that something was not found. -/
def Site.Honest (s : Site) : Prop := ∀ e ∈ s.faults.map Fault.error, e ≠ .notFound

instance (s : Site) : Decidable s.Honest :=
  inferInstanceAs (Decidable (∀ e ∈ s.faults.map Fault.error, e ≠ .notFound))

theorem Site.Honest.call {s : Site} (h : s.Honest) (c : Call) : (s.call c).2.Honest := by
  rw [Honest, errors_call]
  exact h

namespace EventLog

open Program

variable {n : Node}

/-! ## Single events -/

/-- An event taken up, and the moments of its application. -/
structure Trial where
  event : Event
  moments : List Moment

namespace Trial

variable {t : Trial}

/-- The event was applied. -/
def Applied (n : Node) (t : Trial) : Prop := (apply n t.event).Follows t.moments (.ok ())

/-- The event was given up as not found, and when its project was looked for there was none. -/
def Skipped (n : Node) (t : Trial) : Prop :=
  (apply n t.event).Follows t.moments (.error (.error .notFound)) ∧
    ∃ s, ⟨s, .store (.getProject t.event.projectId)⟩ ∈ t.moments ∧
      s.store.projects.get? t.event.projectId = none

/-- The event was consumed. -/
def Consumed (n : Node) (t : Trial) : Prop := t.Applied n ∨ t.Skipped n

/-- Applying the event failed with an error other than not found. -/
def Failed (n : Node) (t : Trial) : Prop :=
  ∃ e, e ≠ .notFound ∧ (apply n t.event).Follows t.moments (.error (.error e))

end Trial

/-- The event of a removal is applied in one step. -/
theorem apply_deleted {e : Event} (h : e.eventType = .deleted) :
    apply n e = (Program.call (.deleteRegistry n.id e.projectId) >>= fun _ => pure ()) := by
  rw [apply, if_neg (not_not_intro h), h]

/-- The part that an event asks a copy of, unless it is that of a removal. -/
def marked (e : Event) : Part :=
  if e.eventType = .updated then e.source.getD .repository else .repository

/-- Any other event asks for a copy of one part of a project, if that is known. -/
theorem apply_of_ne {e : Event} (h : e.eventType ≠ .deleted) :
    apply n e = (Program.call (.getProject e.projectId) >>= fun p =>
      if p.isNone then Program.fail .notFound
      else Program.call (.requestResync n.id e.projectId (marked e))) := by
  rw [apply, if_pos h, marked]
  refine congrArg _ (funext fun p => ?_)
  rcases p with _ | p
  · rfl
  rcases htype : e.eventType with _ | _ | _ | _
  · rfl
  · rfl
  · exact absurd htype h
  · rfl

/-- What a run took up: the events it consumed, and the one it stopped at. -/
structure Tally where
  consumed : List Trial
  stopped : Option Trial

namespace Tally

/-- All trials in order. -/
def trials (y : Tally) : List Trial := y.consumed ++ y.stopped.toList

/-- Their events. -/
def events (y : Tally) : List Event := y.trials.map Trial.event

/-- The moments of all trials. -/
def moments (y : Tally) : List Moment := (y.trials.map Trial.moments).flatten

/-- Nothing taken up. -/
def nothing : Tally := ⟨[], none⟩

/-- One event consumed before the others. -/
def cons (t : Trial) (y : Tally) : Tally := ⟨t :: y.consumed, y.stopped⟩

theorem moments_cons (t : Trial) (y : Tally) : (cons t y).moments = t.moments ++ y.moments := rfl

/-- The trials ended as the tally says, and were those of a beginning of the batch. -/
structure Fair (n : Node) (events : List Event) (y : Tally) : Prop where
  consumed : ∀ t ∈ y.consumed, t.Consumed n
  stopped : ∀ t ∈ y.stopped, t.Failed n
  inOrder : y.events <+: events

theorem Fair.nothing (n : Node) (events : List Event) : nothing.Fair n events :=
  ⟨fun _ h => absurd h List.not_mem_nil, by rintro _ ⟨⟩, List.nil_prefix⟩

theorem Fair.cons {t : Trial} {events : List Event} {y : Tally} (ht : t.Consumed n)
    (hy : y.Fair n events) : (cons t y).Fair n (t.event :: events) := by
  refine ⟨fun t' ht' => ?_, hy.stopped, (List.prefix_cons_inj _).mpr hy.inOrder⟩
  rcases List.mem_cons.mp ht' with rfl | ht'
  · exact ht
  · exact hy.consumed t' ht'

end Tally

section Batch

variable {others : Site → Site → Prop} {inv P : List Moment → Site → Prop}

/-- What a batch has come to after the history `h`: its trials, and the events consumed. -/
def Taken (n : Node) (P : List Moment → Site → Prop) (h : List Moment) (events : List Event)
    (r : Except Failure (List Event)) (h' : List Moment) (s : Site) : Prop :=
  ∃ y : Tally, h' = h ++ y.moments ∧ P h' s ∧ y.Fair n events ∧
    r = .ok (y.consumed.map Trial.event)

theorem Taken.cons {h h' : List Moment} {s : Site} {t : Trial} {events : List Event}
    {r : Except Failure (List Event)} (ht : t.Consumed n)
    (hy : Taken n P (h ++ t.moments) events r h' s) :
    Taken n P h (t.event :: events) (r.map (t.event :: ·)) h' s := by
  obtain ⟨y, rfl, hp, hfair, rfl⟩ := hy
  refine ⟨.cons t y, ?_, hp, hfair.cons ht, rfl⟩
  rw [Tally.moments_cons, List.append_assoc]

end Batch

end EventLog

end GeoReplication
