import GeoReplication.Proofs.Program.Looks
import GeoReplication.Proofs.Program.Secures

/-!
# Proofs/Program/Sober — programs that do not overflow

    clocks within bounds ── effect ── others ── effect ── …   ⇒   a value or an error, no overflow

A program is sober if it never ends with an overflow, whatever others do between its effects, as
long as the clocks show times within bounds `C`.  Nothing but the end of a lease overflows by
itself, so almost everything is sober, and what is put together from it is too.
-/

namespace GeoReplication

open Time

namespace Program

variable {α β : Type} {C : Instant → Nat → Prop} {p p' : α → Prop} {q : β → Prop} {t : Program α}

/-- The clocks are within bounds, and the end is a value with `p` or an error. -/
structure SoberEnd (C : Instant → Nat → Prop) (p : α → Prop) (r : Except Failure α) (s : Site) :
    Prop where
  clocks : C s.now s.uptime
  value : ∀ a, r = .ok a → p a
  sober : ∀ o, r ≠ .error (.overflow o)

/-- **The program never overflows** while the clocks are within bounds, whatever else others do;
`p` holds of its value. -/
def Sober (C : Instant → Nat → Prop) (p : α → Prop) (t : Program α) : Prop :=
  ∀ s, C s.now s.uptime →
    t.Secures (fun _ s' => C s'.now s'.uptime) (fun _ _ => True) (SoberEnd C p) s

namespace Sober

theorem imp (ht : Sober C p t) (hp : ∀ a, p a → p' a) : Sober C p' t := fun s hs =>
  (ht s hs).imp fun _ _ hr => ⟨hr.clocks, fun a ha => hp a (hr.value a ha), hr.sober⟩

theorem pure {a : α} (h : p a) : Sober C p (Pure.pure a) := fun _ hs =>
  ⟨hs, fun _ hb => Except.ok.inj hb ▸ h, by rintro o ⟨⟩⟩

theorem bind {next : α → Program β} (ht : Sober C p t) (hnext : ∀ a, p a → Sober C q (next a)) :
    Sober C q (t >>= next) := fun s hs => .andThen ((ht s hs).imp fun r s' hr => by
  cases r with
  | ok a => exact hnext a (hr.value a rfl) s' hr.clocks
  | error f => exact ⟨hr.clocks, (by rintro _ ⟨⟩), fun o h => hr.sober o (by cases h; rfl)⟩)

theorem attempt (ht : Sober C p t) : Sober C (fun r => ∀ a, r = .ok a → p a) t.attempt := by
  intro s hs
  have hcaught : t.attempt.Secures (fun _ s' => C s'.now s'.uptime) (fun _ _ => True)
      (Returns False fun r s' => (∀ a, r = .ok a → p a) ∧ C s'.now s'.uptime) s := by
    refine .attempt ((ht s hs).imp fun r s' hr => ?_)
    rcases r with (e | o) | a
    · exact ⟨(by rintro _ ⟨⟩), hr.clocks⟩
    · exact hr.sober o rfl
    · exact ⟨(by rintro _ ⟨⟩; exact hr.value a rfl), hr.clocks⟩
  refine hcaught.imp fun r s' hr => ?_
  cases r with
  | ok a => exact ⟨hr.2, (by rintro _ ⟨⟩; exact hr.1), by rintro o ⟨⟩⟩
  | error f => exact hr.elim

/-! ### Effects -/

/-- An effect that leaves the clocks alone. -/
theorem perform {e : Effect} {k : e.Reply → Program α}
    (hclocks : ∀ s : Site, (s.perform e).2.now = s.now ∧ (s.perform e).2.uptime = s.uptime)
    (hnext : ∀ s : Site, C s.now s.uptime → Sober C p (k (s.perform e).1)) :
    Sober C p (Program.perform e k) := fun s hs => by
  refine Secures.perform (I := fun s => C s.now s.uptime) hs (fun _ _ _ => id) fun s' hs' _ => ?_
  obtain ⟨hnow, huptime⟩ := hclocks s'
  exact hnext s' hs' _ (by rwa [hnow, huptime])

theorem ofExcept {r : Except Failure α} (hp : ∀ a, r = .ok a → p a)
    (hr : ∀ o, r ≠ .error (.overflow o)) : Sober C p (Program.ofExcept r) := by
  intro s hs
  cases r with
  | ok a => exact pure (hp a rfl) s hs
  | error f => exact ⟨hs, (by rintro _ ⟨⟩), fun o h => hr o (by cases h; rfl)⟩

theorem call {c : Call} {p : c.Reply → Prop}
    (hp : ∀ s : Site, C s.now s.uptime → ∀ r, (s.call c).1 = .ok r → p r)
    (hc : ∀ s : Site, C s.now s.uptime → ∀ o, (c.run s.now s.store).1 ≠ .error (.overflow o)) :
    Sober C p (Program.call c) :=
  perform (fun s => ⟨s.now_call c, s.uptime_call c⟩) fun s hs =>
    ofExcept (hp s hs) (s.call_ne_overflow (hc s hs))

theorem orElse (whenNone : Error) (o : Option α) :
    Sober C (fun _ => True) (Program.orElse whenNone o) := by
  cases o with
  | none => exact fun s hs => ⟨hs, (by rintro _ ⟨⟩), by rintro o ⟨⟩⟩
  | some a => exact pure trivial

/-- Looks into the store are sober. -/
theorem look {c : Call} (hc : c.writes = []) : Sober C (fun _ => True) (Program.call c) :=
  call (fun _ _ _ _ => trivial) fun _ _ => Call.run_ne_overflow hc _ _

theorem queue (name : String) (c : QueueCall) : Sober C (fun _ => True) (Program.queue name c) :=
  perform (fun _ => ⟨rfl, rfl⟩) fun _ _ => pure trivial

theorem clock : Sober C (fun _ => True) Program.clock :=
  perform (fun _ => ⟨rfl, rfl⟩) fun _ _ => pure trivial

theorem uptime : Sober C (fun u => ∃ now, C now u) Program.uptime :=
  perform (fun _ => ⟨rfl, rfl⟩) fun s hs => pure ⟨s.now, hs⟩

end Sober

end Program

end GeoReplication
